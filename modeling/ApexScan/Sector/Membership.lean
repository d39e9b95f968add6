import ApexScan.Lib.Raising
import ApexScan.Lib.Sorting
import ApexScan.Lib.Validity
import Mathlib.Data.String.Basic

/-!
# Sector membership

Models `app/market_intelligence/sector/membership.py` and what it reads of `models.py`.

* `SectorMembershipDataset` — definitions and effective-dated memberships; `validate` — what the
  constructor of the resolver accepts.
* `MembershipResolver` — an accepted dataset, with `resolvePrimary`, `membersOfPrimarySector` and
  `allPrimarySectors`.
* `PrimaryOn` — what a dataset says: the primary sector of an identity on a date.

Results: `PrimaryOn.unique`, `resolvePrimary_eq_some`, `mem_membersOfPrimarySector` — in an accepted
dataset this is a partial function of identity and date, and both lookups read it.

Names, sources and provenance are read by no function modelled here and are left out.
-/

set_option autoImplicit false

namespace ApexScan.Sector

open Lib

/-! ## The dataset -/

inductive GroupKind where
  | primarySector
  | industry
  | sectorIndex
  | thematicIndex
  | broadMarketIndex
  deriving DecidableEq, Repr

/-- `_PRIMARY_KINDS`. -/
def primaryKinds : List GroupKind := [.primarySector, .industry]

/-- `_INDEX_KINDS`. -/
def indexKinds : List GroupKind := [.sectorIndex, .thematicIndex, .broadMarketIndex]

theorem not_index_of_primary {kind : GroupKind} (h : kind ∈ primaryKinds) : kind ∉ indexKinds := by
  cases kind <;> simp_all [primaryKinds, indexKinds]

/-- A group: a primary sector or an index. -/
structure SectorDefinition where
  sectorId : String
  kind : GroupKind
  sectorId_ne : sectorId ≠ "" := by decide

/-- A membership of one identity in one group, from a date on and up to another one. -/
structure SectorMembership where
  identity : String
  sectorId : String
  primary : Bool
  effectiveFrom : Int
  effectiveTo : Option Int := none
  identity_ne : identity ≠ "" := by decide
  sectorId_ne : sectorId ≠ "" := by decide
  ordered : ∀ e ∈ effectiveTo, effectiveFrom < e := by decide

/-- `active_on`: half-open. -/
def SectorMembership.activeOn (m : SectorMembership) (on : Int) : Bool :=
  if on < m.effectiveFrom then false
  else
    match m.effectiveTo with
    | none => true
    | some effectiveTo => decide (on < effectiveTo)

structure SectorDatasetMetadata where
  effectiveFrom : Int

structure SectorMembershipDataset where
  metadata : SectorDatasetMetadata
  sectorDefinitions : List SectorDefinition
  indexDefinitions : List SectorDefinition
  memberships : List SectorMembership

/-- `SectorDatasetError`, with what its messages name. -/
inductive SectorDatasetError where
  | duplicateSectorId (sectorId : String)
  | nonPrimaryKind (sectorId : String)
  | nonIndexKind (sectorId : String)
  | undefinedSector (sectorId : String)
  | primaryFlagOnNonPrimaryKind (sectorId : String)
  | duplicateMembershipRow (key : String × String × Int)
  | overlappingPrimaryIntervals (identity : String)
  deriving DecidableEq, Repr

/-! ## What is accepted -/

/-- The definition under its id, which must be new. -/
def defineSector (defs : Dict String SectorDefinition) (definition : SectorDefinition) :
    Except SectorDatasetError (Dict String SectorDefinition) :=
  if (defs.get definition.sectorId).isSome then .error (.duplicateSectorId definition.sectorId)
  else .ok (defs.set definition.sectorId definition)

/-- `_validate_definitions`. -/
def validateDefinitions (dataset : SectorMembershipDataset) :
    Except SectorDatasetError (Dict String SectorDefinition) := do
  let defs ← (dataset.sectorDefinitions ++ dataset.indexDefinitions).foldlM defineSector []
  dataset.sectorDefinitions.forM fun definition =>
    if definition.kind ∉ primaryKinds then .error (.nonPrimaryKind definition.sectorId) else .ok ()
  dataset.indexDefinitions.forM fun definition =>
    if definition.kind ∉ indexKinds then .error (.nonIndexKind definition.sectorId) else .ok ()
  return defs

/-- One row of `_validate_memberships`; the keys seen so far grow. -/
def validateMembership (defs : Dict String SectorDefinition) (seen : List (String × String × Int))
    (m : SectorMembership) : Except SectorDatasetError (List (String × String × Int)) :=
  match defs.get m.sectorId with
  | none => .error (.undefinedSector m.sectorId)
  | some definition =>
    if m.primary = true ∧ definition.kind ∉ primaryKinds then
      .error (.primaryFlagOnNonPrimaryKind m.sectorId)
    else if (m.identity, m.sectorId, m.effectiveFrom) ∈ seen then
      .error (.duplicateMembershipRow (m.identity, m.sectorId, m.effectiveFrom))
    else .ok ((m.identity, m.sectorId, m.effectiveFrom) :: seen)

/-- `_validate_memberships`. -/
def validateMemberships (dataset : SectorMembershipDataset) (defs : Dict String SectorDefinition) :
    Except SectorDatasetError (List (String × String × Int)) :=
  dataset.memberships.foldlM (validateMembership defs) []

/-- Two consecutive primary rows of an identity: the earlier one must have ended. -/
def validateConsecutive (identity : String) (earlier later : SectorMembership) :
    Except SectorDatasetError Unit :=
  match earlier.effectiveTo with
  | none => .error (.overlappingPrimaryIntervals identity)
  | some effectiveTo =>
    if later.effectiveFrom < effectiveTo then .error (.overlappingPrimaryIntervals identity) else .ok ()

/-- `_validate_primary_intervals`. -/
def validatePrimaryIntervals (dataset : SectorMembershipDataset) : Except SectorDatasetError Unit :=
  (groupedBy (·.identity) (dataset.memberships.filter (·.primary))).forM fun group =>
    let rows := sortBy (·.effectiveFrom) group.2
    (rows.zip rows.tail).forM fun pair => validateConsecutive group.1 pair.1 pair.2

/-- The checks of `MembershipResolver.__init__`. -/
def validate (dataset : SectorMembershipDataset) : Except SectorDatasetError Unit := do
  let defs ← validateDefinitions dataset
  let _ ← validateMemberships dataset defs
  validatePrimaryIntervals dataset

/-! ## What an accepted dataset is like -/

theorem defineSector_eq_ok {defs defs' : Dict String SectorDefinition} {definition : SectorDefinition} :
    defineSector defs definition = .ok defs' ↔
      defs.get definition.sectorId = none ∧ defs' = defs.set definition.sectorId definition := by
  unfold defineSector
  cases hget : defs.get definition.sectorId with
  | none => simp [eq_comm]
  | some other => simp

/-- Definitions that are accepted have distinct ids, and a lookup finds one of them. -/
theorem foldlM_defineSector {definitions : List SectorDefinition}
    {defs defs' : Dict String SectorDefinition} (h : definitions.foldlM defineSector defs = .ok defs') :
    (definitions.map (·.sectorId)).Nodup ∧ (∀ d ∈ definitions, defs.get d.sectorId = none) ∧
      ∀ sectorId d, defs'.get sectorId = some d →
        defs.get sectorId = some d ∨ d ∈ definitions ∧ d.sectorId = sectorId := by
  induction definitions generalizing defs with
  | nil =>
    cases h
    exact ⟨List.nodup_nil, fun d hd => (List.not_mem_nil hd).elim, fun _ _ hget => Or.inl hget⟩
  | cons head definitions ih =>
    rw [List.foldlM_cons] at h
    obtain ⟨defs₁, hhead, h⟩ := bind_eq_ok.mp h
    obtain ⟨hnew, rfl⟩ := defineSector_eq_ok.mp hhead
    obtain ⟨hnodup, hfresh, hfound⟩ := ih h
    have hne : ∀ d ∈ definitions, head.sectorId ≠ d.sectorId := by
      intro d hd heq
      have := hfresh d hd
      rw [← heq, Dict.get_set_self] at this
      cases this
    refine ⟨?_, ?_, ?_⟩
    · rw [List.map_cons, List.nodup_cons]
      refine ⟨?_, hnodup⟩
      intro hmem
      obtain ⟨d, hd, heq⟩ := List.mem_map.mp hmem
      exact hne d hd heq.symm
    · rw [List.forall_mem_cons]
      refine ⟨hnew, ?_⟩
      intro d hd
      rw [← Dict.get_set_ne defs head (hne d hd)]
      exact hfresh d hd
    · intro sectorId d hget
      rcases hfound sectorId d hget with hold | ⟨hd, hid⟩
      · rw [Dict.get_set] at hold
        split at hold
        · rename_i hid
          cases hold
          exact Or.inr ⟨List.mem_cons_self, hid⟩
        · exact Or.inl hold
      · exact Or.inr ⟨List.mem_cons_of_mem _ hd, hid⟩

variable {dataset : SectorMembershipDataset}

/-- The primary definitions of an accepted dataset have distinct ids, and what a lookup finds of a
    primary kind is one of them. -/
theorem validateDefinitions_spec {defs : Dict String SectorDefinition}
    (h : validateDefinitions dataset = .ok defs) :
    (dataset.sectorDefinitions.map (·.sectorId)).Nodup ∧
      ∀ sectorId d, defs.get sectorId = some d → d.kind ∈ primaryKinds →
        sectorId ∈ dataset.sectorDefinitions.map (·.sectorId) := by
  unfold validateDefinitions at h
  obtain ⟨defs', hdefs, h⟩ := bind_eq_ok.mp h
  obtain ⟨_, _, h⟩ := bind_eq_ok.mp h
  obtain ⟨_, hindex, h⟩ := bind_eq_ok.mp h
  cases h
  obtain ⟨hnodup, -, hfound⟩ := foldlM_defineSector hdefs
  rw [List.map_append] at hnodup
  refine ⟨hnodup.of_append_left, ?_⟩
  intro sectorId d hget hkind
  rcases hfound sectorId d hget with hnone | ⟨hd, rfl⟩
  · cases hnone
  rcases List.mem_append.mp hd with hd | hd
  · exact List.mem_map_of_mem hd
  · have hchecked := forM_eq_ok.mp hindex d hd
    rw [if_pos (not_index_of_primary hkind)] at hchecked
    cases hchecked

/-- A primary row of an accepted dataset is in one of its primary definitions. -/
theorem sectorId_mem_of_primary (h : validate dataset = .ok ()) {m : SectorMembership}
    (hm : m ∈ dataset.memberships) (hprimary : m.primary = true) :
    m.sectorId ∈ dataset.sectorDefinitions.map (·.sectorId) := by
  obtain ⟨defs, hdefs, h⟩ := bind_eq_ok.mp h
  obtain ⟨seen, hrows, -⟩ := bind_eq_ok.mp h
  obtain ⟨c, c', hrow⟩ := exists_of_foldlM_eq_ok hrows hm
  unfold validateMembership at hrow
  split at hrow
  · cases hrow
  · rename_i definition hget
    split at hrow
    · cases hrow
    · rename_i hkind
      refine (validateDefinitions_spec hdefs).2 m.sectorId definition hget ?_
      by_contra hnot
      exact hkind ⟨hprimary, hnot⟩

theorem nodup_sectorDefinitions (h : validate dataset = .ok ()) :
    (dataset.sectorDefinitions.map (·.sectorId)).Nodup := by
  obtain ⟨defs, hdefs, -⟩ := bind_eq_ok.mp h
  exact (validateDefinitions_spec hdefs).1

theorem validateConsecutive_eq_ok {identity : String} {earlier later : SectorMembership} :
    validateConsecutive identity earlier later = .ok () ↔
      EndsBy (·.effectiveFrom) (·.effectiveTo) earlier later := by
  unfold validateConsecutive EndsBy
  cases hto : earlier.effectiveTo with
  | none => simp [hto]
  | some effectiveTo => simp [hto]

theorem activeOn_iff {m : SectorMembership} {on : Int} :
    m.activeOn on = true ↔ ValidAt (·.effectiveFrom) (·.effectiveTo) m on := by
  unfold SectorMembership.activeOn ValidAt
  by_cases hlt : on < m.effectiveFrom
  · simp [hlt]
  · cases hto : m.effectiveTo with
    | none => simp [hto, not_lt.mp hlt, hlt]
    | some effectiveTo => simp [hto, not_lt.mp hlt, hlt]

/-- Two primary rows of one identity are not active on one date. -/
theorem primary_row_unique (h : validate dataset = .ok ()) {m m' : SectorMembership} {on : Int}
    (hm : m ∈ dataset.memberships) (hm' : m' ∈ dataset.memberships) (hprimary : m.primary = true)
    (hprimary' : m'.primary = true) (hidentity : m.identity = m'.identity)
    (hactive : m.activeOn on = true) (hactive' : m'.activeOn on = true) : m = m' := by
  obtain ⟨defs, -, h⟩ := bind_eq_ok.mp h
  obtain ⟨seen, -, h⟩ := bind_eq_ok.mp h
  let rows := (dataset.memberships.filter (·.primary)).filter fun row => row.identity = m.identity
  have hrow : ∀ row ∈ dataset.memberships, row.primary = true → row.identity = m.identity →
      row ∈ rows := by
    intro row hrow hprimary hidentity
    simp [rows, hrow, hprimary, hidentity]
  have hgroup : (m.identity, rows) ∈ groupedBy (·.identity) (dataset.memberships.filter (·.primary)) :=
    (mem_groupedBy_iff _ _ _).mpr ⟨⟨m, List.mem_filter.mpr ⟨hm, hprimary⟩, rfl⟩, rfl⟩
  have hchecked := forM_eq_ok.mp (forM_eq_ok.mp h _ hgroup)
  have hapart := endsBy_pairwise (fun row => row.ordered)
    (isChain_of_zip_tail fun pair hpair => validateConsecutive_eq_ok.mp (hchecked pair hpair))
  exact validAt_unique hapart (mem_sortBy.mpr (hrow m hm hprimary rfl))
    (mem_sortBy.mpr (hrow m' hm' hprimary' hidentity.symm)) (activeOn_iff.mp hactive)
    (activeOn_iff.mp hactive')

/-- What the dataset says: the identity has the sector as its primary one on the date. -/
def PrimaryOn (dataset : SectorMembershipDataset) (identity : String) (on : Int) (sectorId : String) :
    Prop :=
  ∃ m ∈ dataset.memberships, m.identity = identity ∧ m.primary = true ∧ m.activeOn on = true ∧
    m.sectorId = sectorId

theorem PrimaryOn.ne_empty {identity sectorId : String} {on : Int}
    (h : PrimaryOn dataset identity on sectorId) : identity ≠ "" ∧ sectorId ≠ "" := by
  obtain ⟨m, -, rfl, -, -, rfl⟩ := h
  exact ⟨m.identity_ne, m.sectorId_ne⟩

/-- **The primary sector is a partial function of identity and date.** -/
theorem PrimaryOn.unique (h : validate dataset = .ok ()) {identity sectorId sectorId' : String} {on : Int}
    (hs : PrimaryOn dataset identity on sectorId) (hs' : PrimaryOn dataset identity on sectorId') :
    sectorId = sectorId' := by
  obtain ⟨m, hm, hidentity, hprimary, hactive, rfl⟩ := hs
  obtain ⟨m', hm', hidentity', hprimary', hactive', rfl⟩ := hs'
  rw [primary_row_unique h hm hm' hprimary hprimary' (hidentity.trans hidentity'.symm) hactive hactive']

/-! ## The resolver -/

/-- A resolver over an accepted dataset. -/
structure MembershipResolver where
  dataset : SectorMembershipDataset
  accepted : validate dataset = .ok ()

namespace MembershipResolver

variable (r : MembershipResolver)

/-- `_by_identity`. -/
def byIdentity : Dict String (List SectorMembership) := groupedBy (·.identity) r.dataset.memberships

/-- `_on`. -/
def onDate (on : Option Int) : Int := on.getD r.dataset.metadata.effectiveFrom

/-- `resolve_primary`: the first active primary row. -/
def resolvePrimary (identity : String) (on : Option Int) : Option String :=
  let rows := (r.byIdentity.get identity).getD []
  (rows.find? fun m => m.primary && m.activeOn (r.onDate on)).map (·.sectorId)

/-- `members_of_primary_sector`. -/
def membersOfPrimarySector (sectorId : String) (on : Option Int) : List String :=
  let active (m : SectorMembership) := m.primary && m.sectorId = sectorId && m.activeOn (r.onDate on)
  sortBy id ((r.byIdentity.filter fun item => item.2.any active).map (·.1))

/-- `all_primary_sectors`. -/
def allPrimarySectors : List String := sortBy id (r.dataset.sectorDefinitions.map (·.sectorId))

variable {r} {identity sectorId : String} {on : Option Int}

theorem resolvePrimary_eq_some :
    r.resolvePrimary identity on = some sectorId ↔
      PrimaryOn r.dataset identity (r.onDate on) sectorId := by
  have hrows : (r.byIdentity.get identity).getD [] =
      r.dataset.memberships.filter fun m => m.identity = identity := get_groupedBy _ _
  unfold resolvePrimary
  simp only [hrows]
  constructor
  · intro h
    obtain ⟨m, hfound, rfl⟩ := Option.map_eq_some_iff.mp h
    have hm := List.mem_filter.mp (List.mem_of_find?_eq_some hfound)
    have hactive := List.find?_some hfound
    rw [Bool.and_eq_true] at hactive
    exact ⟨m, hm.1, of_decide_eq_true hm.2, hactive.1, hactive.2, rfl⟩
  · intro h
    obtain ⟨m, hm, hidentity, hprimary, hactive, -⟩ := id h
    cases hfind : (r.dataset.memberships.filter fun m => m.identity = identity).find? fun m =>
        m.primary && m.activeOn (r.onDate on) with
    | none =>
      have := List.find?_eq_none.mp hfind m (List.mem_filter.mpr ⟨hm, decide_eq_true hidentity⟩)
      simp [hprimary, hactive] at this
    | some m' =>
      have hm' := List.mem_filter.mp (List.mem_of_find?_eq_some hfind)
      have hactive' := List.find?_some hfind
      rw [Bool.and_eq_true] at hactive'
      have hother : PrimaryOn r.dataset identity (r.onDate on) m'.sectorId :=
        ⟨m', hm'.1, of_decide_eq_true hm'.2, hactive'.1, hactive'.2, rfl⟩
      rw [Option.map_some, hother.unique r.accepted h]

theorem mem_membersOfPrimarySector :
    identity ∈ r.membersOfPrimarySector sectorId on ↔
      PrimaryOn r.dataset identity (r.onDate on) sectorId := by
  unfold membersOfPrimarySector PrimaryOn byIdentity
  simp only [mem_sortBy, List.mem_map, List.mem_filter, List.any_eq_true, Bool.and_eq_true,
    decide_eq_true_eq]
  constructor
  · rintro ⟨⟨identity, rows⟩, ⟨hgroup, m, hm, ⟨hprimary, hsector⟩, hactive⟩, rfl⟩
    rw [((mem_groupedBy_iff _ _ _).mp hgroup).2, List.mem_filter, decide_eq_true_eq] at hm
    exact ⟨m, hm.1, hm.2, hprimary, hactive, hsector⟩
  · rintro ⟨m, hm, rfl, hprimary, hactive, hsector⟩
    refine ⟨(m.identity, r.dataset.memberships.filter fun row => row.identity = m.identity), ?_, rfl⟩
    refine ⟨(mem_groupedBy_iff _ _ _).mpr ⟨⟨m, hm, rfl⟩, rfl⟩, m, ?_, ⟨hprimary, hsector⟩, hactive⟩
    exact List.mem_filter.mpr ⟨hm, decide_eq_true rfl⟩

theorem nodup_membersOfPrimarySector : (r.membersOfPrimarySector sectorId on).Nodup :=
  sortBy_perm.nodup_iff.mpr ((nodup_groupedBy _).sublist (List.filter_sublist.map _))

theorem nodup_allPrimarySectors : r.allPrimarySectors.Nodup :=
  sortBy_perm.nodup_iff.mpr (nodup_sectorDefinitions r.accepted)

theorem mem_allPrimarySectors {on : Int} (h : PrimaryOn r.dataset identity on sectorId) :
    sectorId ∈ r.allPrimarySectors := by
  obtain ⟨m, hm, -, hprimary, -, rfl⟩ := h
  exact mem_sortBy.mpr (sectorId_mem_of_primary r.accepted hm hprimary)

/-! ## The universe of a date -/

/-- The members of all primary sectors, one after the other. -/
def membersOn (r : MembershipResolver) (on : Option Int) : List String :=
  r.allPrimarySectors.flatMap fun sectorId => r.membersOfPrimarySector sectorId on

theorem mem_membersOn :
    identity ∈ r.membersOn on ↔ ∃ sectorId, PrimaryOn r.dataset identity (r.onDate on) sectorId := by
  unfold membersOn
  simp only [List.mem_flatMap, mem_membersOfPrimarySector]
  constructor
  · rintro ⟨sectorId, -, h⟩
    exact ⟨sectorId, h⟩
  · rintro ⟨sectorId, h⟩
    exact ⟨sectorId, mem_allPrimarySectors h, h⟩

theorem isSome_resolvePrimary :
    (r.resolvePrimary identity on).isSome ↔ identity ∈ r.membersOn on := by
  rw [Option.isSome_iff_exists, mem_membersOn]
  exact exists_congr fun _ => resolvePrimary_eq_some

/-- **Each identity is in one sector only**: the sectors of a date are disjoint. -/
theorem nodup_membersOn : (r.membersOn on).Nodup := by
  unfold membersOn
  rw [List.nodup_flatMap]
  refine ⟨fun _ _ => nodup_membersOfPrimarySector, ?_⟩
  refine nodup_allPrimarySectors.imp ?_
  intro sectorId sectorId' hne identity hmem hmem'
  rw [mem_membersOfPrimarySector] at hmem hmem'
  exact hne (hmem.unique r.accepted hmem')

theorem length_membersOn :
    (r.membersOn on).length =
      (r.allPrimarySectors.map fun sectorId => (r.membersOfPrimarySector sectorId on).length).sum :=
  List.length_flatMap

end MembershipResolver

end ApexScan.Sector
