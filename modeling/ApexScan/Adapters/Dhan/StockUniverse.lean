import ApexScan.Adapters.Dhan.Subscriptions
import ApexScan.Lib.IsoDate
import ApexScan.Lib.Sorting
import Mathlib.Data.List.Forall2
import Mathlib.Data.Prod.Lex
import Mathlib.Data.String.Basic

/-!
# Universes from the instrument master (`app/adapters/dhan/normalizer.py`)

A stock derivative names the security id of its underlying share.  Two derivations join the derivatives
to the shares through dictionaries that are keyed by the security id, in which the last row wins.

* `isNseEquityShare`, `candidateLink` — the rows that are joined.
* `deriveEquityFnoUniverse` — the derivatives whose share has the symbol of their underlying.
* `resolveNseCashEquityLiveUniverse` — one share for each underlying, and the underlyings for which
  there is none, more than one, or one with another symbol.
* `Links.Spec` — what the loop over the derivatives has collected; `Links.Spec.step` is one round.
* `LinkedTo`, `Missing`, `Mismatched`, `Ambiguous` — what the derivatives of an underlying say.

Main result: `universes_agree`.  `last_share_wins` is a master with one security id for two shares.
-/

set_option autoImplicit false

namespace ApexScan.Dhan

open Lib

/-! ## Rows -/

/-- A row of the master: a reference with what the live feed does not need. -/
structure MasterReference extends DhanInstrumentReference where
  underlyingSecurityId : Option String
  providerInstrumentType : String

/-- `_is_nse_equity_share`. -/
def isNseEquityShare (reference : MasterReference) : Bool :=
  let instrument := reference.instrument
  instrument.exchange = "NSE" && reference.exchangeSegment = some "NSE_EQ" &&
    reference.providerInstrumentType = "EQUITY" && instrument.marketSegment = .equity &&
    instrument.instrumentClass = .cash && instrument.listingType = some "ES"

/-- `_is_nse_stock_derivative_candidate`, with the underlying and its security id, which a candidate
    has. -/
def candidateLink (reference : MasterReference) : Option (UnderlyingInstrument × String) :=
  match reference.instrument.underlying, reference.underlyingSecurityId with
  | some underlying, some securityId =>
    if reference.instrument.exchange = "NSE" ∧ reference.exchangeSegment = some "NSE_FNO" ∧
        (reference.providerInstrumentType = "FUTSTK" ∨ reference.providerInstrumentType = "OPTSTK") then
      some (underlying, securityId)
    else none
  | _, _ => none

/-- `{reference.security_id: reference for ...}`. -/
def bySecurityId (references : List MasterReference) : Dict String MasterReference :=
  references.foldl (fun d reference => d.set reference.securityId reference) []

/-- `cash_equities_by_security_id`. -/
def cashEquities (references : List MasterReference) : Dict String MasterReference :=
  bySecurityId (references.filter isNseEquityShare)

/-- `_is_production_nse_stock_derivative`. -/
def isProductionDerivative (cash : Dict String MasterReference) (reference : MasterReference) : Bool :=
  match candidateLink reference with
  | none => false
  | some (underlying, securityId) =>
    match cash.get securityId with
    | none => false
    | some share => share.instrument.symbol = underlying.symbol

/-- `_reference_sort_key` of this file; the live feed has another one. -/
def masterSortKey (reference : MasterReference) : String ×ₗ String ×ₗ String ×ₗ String ×ₗ String :=
  let instrument := reference.instrument
  toLex (instrument.exchange, toLex (instrument.symbol, toLex (instrument.instrumentClass.value,
    toLex ((instrument.expiry.map isoformat).getD "", reference.securityId))))

/-- `(underlying.exchange, underlying.symbol)`. -/
def underlyingKey (underlying : UnderlyingInstrument) : String ×ₗ String :=
  toLex (underlying.exchange, underlying.symbol)

/-! ## The derivative universe -/

structure FnoStockUniverse where
  futures : List MasterReference
  options : List MasterReference
  underlyings : List UnderlyingInstrument

/-- `derive_equity_fno_universe`. -/
def deriveEquityFnoUniverse (references : List MasterReference) : FnoStockUniverse :=
  let stockDerivatives := references.filter (isProductionDerivative (cashEquities references))
  let futures := sortBy masterSortKey
    (stockDerivatives.filter fun reference => reference.providerInstrumentType = "FUTSTK")
  let options := sortBy masterSortKey
    (stockDerivatives.filter fun reference => reference.providerInstrumentType = "OPTSTK")
  { futures, options
    underlyings := sortBy underlyingKey
      ((futures ++ options).filterMap (·.instrument.underlying)).dedup }

/-! ## The live universe -/

structure CashEquityLiveUniverse where
  underlyings : List UnderlyingInstrument
  cashReferences : List MasterReference
  missingUnderlyings : List UnderlyingInstrument
  ambiguousUnderlyings : List UnderlyingInstrument
  symbolMismatches : List UnderlyingInstrument

/-- What one derivative says of its underlying. -/
inductive LinkVerdict where
  | missing
  | noShare
  | mismatch
  | linked (share : MasterReference)

/-- The look-ups of the loop for one derivative. -/
def linkVerdict (all cash : Dict String MasterReference) (derivative : MasterReference) :
    Option (UnderlyingInstrument × LinkVerdict) :=
  match candidateLink derivative with
  | none => none
  | some (underlying, securityId) =>
    match all.get securityId, cash.get securityId with
    | none, _ => some (underlying, .missing)
    | some _, none => some (underlying, .noShare)
    | some _, some share =>
      if share.instrument.symbol ≠ underlying.symbol then some (underlying, .mismatch)
      else some (underlying, .linked share)

/-- The collections of the loop; the sets hold each element once. -/
structure Links where
  byUnderlying : Dict UnderlyingInstrument (Dict String MasterReference) := []
  missing : List UnderlyingInstrument := []
  mismatches : List UnderlyingInstrument := []

/-- One round of the loop. -/
def linkOne (all cash : Dict String MasterReference) (links : Links) (derivative : MasterReference) :
    Links :=
  match linkVerdict all cash derivative with
  | none => links
  | some (underlying, .missing) => { links with missing := links.missing.insert underlying }
  | some (_, .noShare) => links
  | some (underlying, .mismatch) => { links with mismatches := links.mismatches.insert underlying }
  | some (underlying, .linked share) =>
    { links with
      byUnderlying := links.byUnderlying.set underlying
        (Dict.set ((links.byUnderlying.get underlying).getD []) share.securityId share) }

def linksOf (references : List MasterReference) : Links :=
  references.foldl (linkOne (bySecurityId references) (cashEquities references)) {}

/-- `ambiguous_underlyings`. -/
def Links.ambiguous (links : Links) : List UnderlyingInstrument :=
  (links.byUnderlying.filter fun item => item.2.length ≠ 1).map (·.1)

/-- `resolved_underlyings`, before they are sorted. -/
def Links.resolved (links : Links) : List UnderlyingInstrument :=
  (links.byUnderlying.filter fun item =>
    item.1 ∉ links.missing ∧ item.1 ∉ links.mismatches ∧ item.1 ∉ links.ambiguous ∧
      item.2.length = 1).map (·.1)

/-- `next(iter(references_by_underlying[underlying].values()))`. -/
def Links.firstShare (links : Links) (underlying : UnderlyingInstrument) : Option MasterReference :=
  (links.byUnderlying.get underlying).bind fun shares => shares.head?.map (·.2)

/-- `resolve_nse_cash_equity_live_universe`. -/
def resolveNseCashEquityLiveUniverse (references : List MasterReference) : CashEquityLiveUniverse :=
  let links := linksOf references
  let resolved := sortBy underlyingKey links.resolved
  { underlyings := resolved
    cashReferences := resolved.filterMap links.firstShare
    missingUnderlyings := sortBy underlyingKey links.missing
    ambiguousUnderlyings := sortBy underlyingKey links.ambiguous
    symbolMismatches := sortBy underlyingKey links.mismatches }

/-! ## Dictionaries of rows -/

variable {references : List MasterReference} {underlying : UnderlyingInstrument}

/-- A binding is a row with its id, and an id without a row is not bound. -/
theorem bySecurityId_get (references : List MasterReference) (securityId : String) :
    match (bySecurityId references).get securityId with
    | some reference => reference ∈ references ∧ reference.securityId = securityId
    | none => ∀ reference ∈ references, reference.securityId ≠ securityId := by
  unfold bySecurityId
  induction references using List.reverseRecOn with
  | nil => simp
  | append_singleton references last ih =>
    rw [List.foldl_append, List.foldl_cons, List.foldl_nil, Dict.get_set]
    by_cases hlast : last.securityId = securityId
    · rw [if_pos hlast]
      exact ⟨List.mem_append_right _ (List.mem_singleton_self _), hlast⟩
    · rw [if_neg hlast]
      cases hget : Dict.get (references.foldl (fun d reference => d.set reference.securityId reference) [])
          securityId with
      | some reference =>
        rw [hget] at ih
        exact ⟨List.mem_append_left _ ih.1, ih.2⟩
      | none =>
        rw [hget] at ih
        intro reference hmem
        rcases List.mem_append.mp hmem with hmem | hmem
        · exact ih reference hmem
        · rw [List.mem_singleton.mp hmem]
          exact hlast

theorem bySecurityId_get_eq_none_iff {securityId : String} :
    (bySecurityId references).get securityId = none ↔
      ∀ reference ∈ references, reference.securityId ≠ securityId := by
  have hget := bySecurityId_get references securityId
  cases h : (bySecurityId references).get securityId with
  | none =>
    rw [h] at hget
    simpa using hget
  | some reference =>
    rw [h] at hget
    simp only [reduceCtorEq, false_iff]
    intro hnone
    exact hnone reference hget.1 hget.2

/-- A cash binding is a share with its id. -/
theorem cashEquities_get {securityId : String} {share : MasterReference}
    (h : (cashEquities references).get securityId = some share) :
    share ∈ references ∧ isNseEquityShare share = true ∧ share.securityId = securityId := by
  have hget := bySecurityId_get (references.filter isNseEquityShare) securityId
  unfold cashEquities at h
  rw [h] at hget
  obtain ⟨hmem, hshare⟩ := List.mem_filter.mp hget.1
  exact ⟨hmem, hshare, hget.2⟩

/-- The security id that a derivative names belongs to at most one share. -/
def OneShareEach (references : List MasterReference) : Prop :=
  ∀ derivative ∈ references, ∀ link, candidateLink derivative = some link →
    ∀ a ∈ references, ∀ b ∈ references, isNseEquityShare a = true → isNseEquityShare b = true →
      a.securityId = link.2 → b.securityId = link.2 → a = b

/-- An id of one share at most is bound alike in every order. -/
theorem cashEquities_get_of_perm {other : List MasterReference} (h : references.Perm other)
    {securityId : String}
    (hone : ∀ a ∈ references, ∀ b ∈ references, isNseEquityShare a = true → isNseEquityShare b = true →
      a.securityId = securityId → b.securityId = securityId → a = b) :
    (cashEquities references).get securityId = (cashEquities other).get securityId := by
  cases hget : (cashEquities references).get securityId with
  | none =>
    symm
    refine bySecurityId_get_eq_none_iff.mpr fun share hshare => ?_
    refine bySecurityId_get_eq_none_iff.mp hget share ?_
    exact (h.filter isNseEquityShare).mem_iff.mpr hshare
  | some share =>
    obtain ⟨hmem, hshare, hid⟩ := cashEquities_get hget
    cases hget' : (cashEquities other).get securityId with
    | none =>
      exact absurd hid (bySecurityId_get_eq_none_iff.mp hget' share
        (List.mem_filter.mpr ⟨h.mem_iff.mp hmem, hshare⟩))
    | some share' =>
      obtain ⟨hmem', hshare', hid'⟩ := cashEquities_get hget'
      rw [hone share hmem share' (h.mem_iff.mpr hmem') hshare hshare' hid hid']

/-- A share is not bound where no row is. -/
theorem cashEquities_get_eq_none {securityId : String}
    (h : (bySecurityId references).get securityId = none) :
    (cashEquities references).get securityId = none := by
  refine bySecurityId_get_eq_none_iff.mpr fun share hshare => ?_
  exact bySecurityId_get_eq_none_iff.mp h share (List.mem_filter.mp hshare).1

/-! ## What the derivatives say -/

/-- Some of the derivatives have this to say of the underlying. -/
def Says (references derivatives : List MasterReference) (underlying : UnderlyingInstrument)
    (verdict : LinkVerdict) : Prop :=
  ∃ derivative ∈ derivatives,
    linkVerdict (bySecurityId references) (cashEquities references) derivative =
      some (underlying, verdict)

/-- A derivative of the underlying names an id without a row. -/
def Missing (references : List MasterReference) (underlying : UnderlyingInstrument) : Prop :=
  Says references references underlying .missing

/-- A derivative of the underlying names a share with another symbol. -/
def Mismatched (references : List MasterReference) (underlying : UnderlyingInstrument) : Prop :=
  Says references references underlying .mismatch

/-- A derivative of the underlying names the share, and the share has its symbol. -/
def LinkedTo (references : List MasterReference) (underlying : UnderlyingInstrument)
    (share : MasterReference) : Prop :=
  Says references references underlying (.linked share)

/-- Derivatives of the underlying name two shares. -/
def Ambiguous (references : List MasterReference) (underlying : UnderlyingInstrument) : Prop :=
  ∃ a b, LinkedTo references underlying a ∧ LinkedTo references underlying b ∧ a ≠ b

theorem says_concat {derivatives : List MasterReference} {derivative : MasterReference}
    {verdict : LinkVerdict} :
    Says references (derivatives ++ [derivative]) underlying verdict ↔
      Says references derivatives underlying verdict ∨
        linkVerdict (bySecurityId references) (cashEquities references) derivative =
          some (underlying, verdict) := by
  unfold Says
  simp [or_and_right, exists_or]

/-- A linked share is bound to its id, and has the symbol of the underlying. -/
theorem linkVerdict_linked {derivative share : MasterReference}
    (h : linkVerdict (bySecurityId references) (cashEquities references) derivative =
      some (underlying, .linked share)) :
    candidateLink derivative = some (underlying, share.securityId) ∧
      (cashEquities references).get share.securityId = some share ∧
      share.instrument.symbol = underlying.symbol := by
  unfold linkVerdict at h
  cases hlink : candidateLink derivative with
  | none => simp [hlink] at h
  | some link =>
    obtain ⟨named, securityId⟩ := link
    cases hall : (bySecurityId references).get securityId with
    | none => simp [hlink, hall] at h
    | some _ =>
      cases hcash : (cashEquities references).get securityId with
      | none => simp [hlink, hall, hcash] at h
      | some bound =>
        simp only [hlink, hall, hcash] at h
        split at h
        · simp at h
        · next hsymbol =>
          simp only [Option.some.injEq, Prod.mk.injEq, LinkVerdict.linked.injEq] at h
          obtain ⟨rfl, rfl⟩ := h
          rw [(cashEquities_get hcash).2.2]
          exact ⟨rfl, hcash, not_not.mp hsymbol⟩

/-- With one share for a derivative the order of the rows does not matter to its verdict. -/
theorem linkVerdict_of_perm {other : List MasterReference} (h : references.Perm other)
    (hone : OneShareEach references) {derivative : MasterReference} (hmem : derivative ∈ references) :
    linkVerdict (bySecurityId references) (cashEquities references) derivative =
      linkVerdict (bySecurityId other) (cashEquities other) derivative := by
  unfold linkVerdict
  cases hlink : candidateLink derivative with
  | none => rfl
  | some link =>
    obtain ⟨named, securityId⟩ := link
    have hcash := cashEquities_get_of_perm h (hone derivative hmem _ hlink)
    have hall : (bySecurityId references).get securityId = none ↔
        (bySecurityId other).get securityId = none := by
      simp only [bySecurityId_get_eq_none_iff, h.mem_iff]
    simp only at hcash ⊢
    rw [hcash]
    cases ha : (bySecurityId references).get securityId with
    | none => rw [hall.mp ha]
    | some _ =>
      cases hb : (bySecurityId other).get securityId with
      | none =>
        rw [hall.mpr hb] at ha
        cases ha
      | some _ => cases (cashEquities other).get securityId <;> rfl

/-- With one share for each derivative the order of the rows does not matter. -/
theorem says_of_perm {other : List MasterReference} (h : references.Perm other)
    (hone : OneShareEach references) (verdict : LinkVerdict) :
    Says references references underlying verdict ↔ Says other other underlying verdict := by
  unfold Says
  constructor
  · rintro ⟨derivative, hmem, hsaid⟩
    exact ⟨derivative, h.mem_iff.mp hmem, linkVerdict_of_perm h hone hmem ▸ hsaid⟩
  · rintro ⟨derivative, hmem, hsaid⟩
    have hmem := h.mem_iff.mpr hmem
    exact ⟨derivative, hmem, (linkVerdict_of_perm h hone hmem).trans hsaid⟩

/-! ## The loop -/

/-- What the loop has collected from the derivatives so far. -/
structure Links.Spec (references derivatives : List MasterReference) (links : Links) : Prop where
  missing : ∀ underlying, underlying ∈ links.missing ↔ Says references derivatives underlying .missing
  mismatches : ∀ underlying,
    underlying ∈ links.mismatches ↔ Says references derivatives underlying .mismatch
  shares : ∀ underlying securityId share,
    (links.byUnderlying.get underlying).bind (Dict.get · securityId) = some share ↔
      share.securityId = securityId ∧ Says references derivatives underlying (.linked share)
  distinct : links.missing.Nodup ∧ links.mismatches.Nodup ∧ (links.byUnderlying.map (·.1)).Nodup
  entries : ∀ item ∈ links.byUnderlying, item.2 ≠ [] ∧ (item.2.map (·.1)).Nodup

/-- A derivative that links an underlying adds the share to the shares of the underlying. -/
theorem Links.Spec.link {derivatives : List MasterReference} {links : Links}
    {derivative share : MasterReference} (hspec : links.Spec references derivatives)
    (hverdict : linkVerdict (bySecurityId references) (cashEquities references) derivative =
      some (underlying, .linked share)) :
    Links.Spec references (derivatives ++ [derivative])
      { links with
        byUnderlying := links.byUnderlying.set underlying
          (Dict.set ((links.byUnderlying.get underlying).getD []) share.securityId share) } where
  missing u := by simp [says_concat, hverdict, hspec.missing u]
  mismatches u := by simp [says_concat, hverdict, hspec.mismatches u]
  shares u securityId c := by
    have hold := hspec.shares u securityId c
    rw [says_concat, hverdict, Dict.get_set]
    by_cases hu : underlying = u
    · subst hu
      have hshares : Dict.get ((links.byUnderlying.get underlying).getD []) securityId = some c ↔
          c.securityId = securityId ∧ Says references derivatives underlying (.linked c) := by
        rw [← hold]
        cases links.byUnderlying.get underlying <;> simp
      rw [if_pos rfl, Option.bind_some, Dict.get_set]
      by_cases hid : share.securityId = securityId
      · rw [if_pos hid]
        constructor
        · intro h
          cases h
          exact ⟨hid, Or.inr rfl⟩
        · rintro ⟨hc, hsaid | heq⟩
          · -- The share that was bound to the id before is the same one.
            obtain ⟨other, hmem, hother⟩ := hsaid
            have hget := (linkVerdict_linked hother).2.1
            rw [hc, ← hid, (linkVerdict_linked hverdict).2.1] at hget
            exact hget
          · cases heq
            rfl
      · rw [if_neg hid, hshares]
        constructor
        · exact fun h => ⟨h.1, Or.inl h.2⟩
        · rintro ⟨hc, hsaid | heq⟩
          · exact ⟨hc, hsaid⟩
          · cases heq
            exact absurd hc hid
    · simpa [hu] using hold
  distinct := ⟨hspec.distinct.1, hspec.distinct.2.1, Dict.nodup_keys_set hspec.distinct.2.2 _ _⟩
  entries item hitem := by
    rcases Dict.mem_set hitem with rfl | hitem
    · refine ⟨Dict.set_ne_nil _ _ _, Dict.nodup_keys_set ?_ _ _⟩
      cases hget : links.byUnderlying.get underlying with
      | none => exact List.nodup_nil
      | some shares =>
        exact (hspec.entries _ ((Dict.mem_iff_get hspec.distinct.2.2 _ _).mpr hget)).2
    · exact hspec.entries item hitem

/-- A derivative that says nothing of a missing row or a share changes nothing. -/
theorem Links.Spec.skip {derivatives : List MasterReference} {links : Links}
    {derivative : MasterReference} (hspec : links.Spec references derivatives)
    (hsilent : ∀ underlying verdict, linkVerdict (bySecurityId references) (cashEquities references)
      derivative = some (underlying, verdict) → verdict = .noShare) :
    links.Spec references (derivatives ++ [derivative]) := by
  have hsaid (underlying : UnderlyingInstrument) (verdict : LinkVerdict) (h : verdict ≠ .noShare) :
      Says references (derivatives ++ [derivative]) underlying verdict ↔
        Says references derivatives underlying verdict := by
    rw [says_concat, or_iff_left fun hverdict => h (hsilent _ _ hverdict)]
  obtain ⟨hmissing, hmismatches, hshares, hdistinct, hentries⟩ := hspec
  refine ⟨fun u => ?_, fun u => ?_, fun u securityId share => ?_, hdistinct, hentries⟩
  · rw [hmissing u, hsaid u .missing (by simp)]
  · rw [hmismatches u, hsaid u .mismatch (by simp)]
  · rw [hshares u securityId share, hsaid u (.linked share) (by simp)]

/-- One round of the loop. -/
theorem Links.Spec.step {derivatives : List MasterReference} {links : Links}
    (hspec : links.Spec references derivatives) (derivative : MasterReference) :
    (linkOne (bySecurityId references) (cashEquities references) links derivative).Spec references
      (derivatives ++ [derivative]) := by
  unfold linkOne
  cases hverdict : linkVerdict (bySecurityId references) (cashEquities references) derivative with
  | none => exact hspec.skip (by simp [hverdict])
  | some said =>
    obtain ⟨underlying, verdict⟩ := said
    cases verdict with
    | missing =>
      obtain ⟨hmissing, hmismatches, hshares, hdistinct, hentries⟩ := hspec
      exact ⟨fun u => by simp [says_concat, hverdict, hmissing u, or_comm, eq_comm],
        by simpa [says_concat, hverdict] using hmismatches,
        by simpa [says_concat, hverdict] using hshares, ⟨hdistinct.1.insert, hdistinct.2⟩, hentries⟩
    | noShare => exact hspec.skip (by simp [hverdict])
    | mismatch =>
      obtain ⟨hmissing, hmismatches, hshares, hdistinct, hentries⟩ := hspec
      exact ⟨by simpa [says_concat, hverdict] using hmissing,
        fun u => by simp [says_concat, hverdict, hmismatches u, or_comm, eq_comm],
        by simpa [says_concat, hverdict] using hshares,
        ⟨hdistinct.1, hdistinct.2.1.insert, hdistinct.2.2⟩, hentries⟩
    | linked share => exact hspec.link hverdict

theorem linksOf_spec (references : List MasterReference) :
    (linksOf references).Spec references references := by
  have hloop (derivatives : List MasterReference) :
      Links.Spec references derivatives
        (derivatives.foldl (linkOne (bySecurityId references) (cashEquities references)) {}) := by
    induction derivatives using List.reverseRecOn with
    | nil =>
      refine ⟨?_, ?_, ?_, ?_, ?_⟩ <;> simp [Says]
    | append_singleton derivatives derivative ih =>
      rw [List.foldl_append]
      exact ih.step derivative
  exact hloop references

/-- The shares that are collected for an underlying are those it is linked to. -/
theorem linkedTo_iff_mem {share : MasterReference} :
    LinkedTo references underlying share ↔
      ∃ shares, (underlying, shares) ∈ (linksOf references).byUnderlying ∧
        (share.securityId, share) ∈ shares := by
  have hspec := linksOf_spec references
  have hget := hspec.shares underlying share.securityId share
  constructor
  · intro h
    obtain ⟨shares, hshares, hshare⟩ := Option.bind_eq_some_iff.mp (hget.mpr ⟨rfl, h⟩)
    have hmem := (Dict.mem_iff_get hspec.distinct.2.2 _ _).mpr hshares
    exact ⟨shares, hmem, (Dict.mem_iff_get (hspec.entries _ hmem).2 _ _).mpr hshare⟩
  · rintro ⟨shares, hmem, hshare⟩
    refine (hget.mp ?_).2
    rw [(Dict.mem_iff_get hspec.distinct.2.2 _ _).mp hmem, Option.bind_some]
    exact (Dict.mem_iff_get (hspec.entries _ hmem).2 _ _).mp hshare

/-- An item of the shares of an underlying is a share it is linked to, under the id of the share. -/
theorem linkedTo_of_item {shares : Dict String MasterReference} {item : String × MasterReference}
    (hmem : (underlying, shares) ∈ (linksOf references).byUnderlying) (hitem : item ∈ shares) :
    item.2.securityId = item.1 ∧ LinkedTo references underlying item.2 := by
  have hspec := linksOf_spec references
  refine (hspec.shares underlying item.1 item.2).mp ?_
  rw [(Dict.mem_iff_get hspec.distinct.2.2 _ _).mp hmem, Option.bind_some]
  exact (Dict.mem_iff_get (hspec.entries _ hmem).2 _ _).mp hitem

/-- An underlying has one share exactly when it is not ambiguous. -/
theorem length_eq_one_iff {shares : Dict String MasterReference}
    (hmem : (underlying, shares) ∈ (linksOf references).byUnderlying) :
    shares.length = 1 ↔ ¬ Ambiguous references underlying := by
  have hspec := linksOf_spec references
  obtain ⟨hne, hnodup⟩ := hspec.entries _ hmem
  have hall {share : MasterReference} (h : LinkedTo references underlying share) :
      (share.securityId, share) ∈ shares := by
    obtain ⟨others, hothers, hshare⟩ := linkedTo_iff_mem.mp h
    have hsame := (Dict.mem_iff_get hspec.distinct.2.2 _ _).mp hothers
    rw [(Dict.mem_iff_get hspec.distinct.2.2 _ _).mp hmem] at hsame
    rw [Option.some.inj hsame]
    exact hshare
  constructor
  · rintro hone ⟨a, b, ha, hb, hab⟩
    obtain ⟨item, rfl⟩ := List.length_eq_one_iff.mp hone
    have ha := List.mem_singleton.mp (hall ha)
    have hb := List.mem_singleton.mp (hall hb)
    exact hab (congrArg Prod.snd (ha.trans hb.symm))
  · intro hone
    cases shares with
    | nil => exact absurd rfl hne
    | cons first rest =>
      cases rest with
      | nil => rfl
      | cons next rest =>
        obtain ⟨hfirst, hlinked⟩ := linkedTo_of_item hmem List.mem_cons_self
        obtain ⟨hnext, hlinked'⟩ := linkedTo_of_item hmem (List.mem_cons_of_mem first List.mem_cons_self)
        refine absurd ⟨first.2, next.2, hlinked, hlinked', fun heq => ?_⟩ hone
        have hkey : first.1 = next.1 := by rw [← hfirst, ← hnext, heq]
        simp [hkey] at hnodup

theorem mem_ambiguous : underlying ∈ (linksOf references).ambiguous ↔ Ambiguous references underlying := by
  unfold Links.ambiguous
  simp only [List.mem_map, List.mem_filter, decide_eq_true_eq]
  constructor
  · rintro ⟨⟨_, shares⟩, ⟨hmem, hlength⟩, rfl⟩
    by_contra hone
    exact hlength ((length_eq_one_iff hmem).mpr hone)
  · intro h
    obtain ⟨a, _, ha, _⟩ := id h
    obtain ⟨shares, hmem, _⟩ := linkedTo_iff_mem.mp ha
    exact ⟨(underlying, shares), ⟨hmem, fun hone => (length_eq_one_iff hmem).mp hone h⟩, rfl⟩

theorem mem_resolved : underlying ∈ (linksOf references).resolved ↔
    (∃ share, LinkedTo references underlying share) ∧ ¬ Missing references underlying ∧
      ¬ Mismatched references underlying ∧ ¬ Ambiguous references underlying := by
  have hspec := linksOf_spec references
  unfold Links.resolved
  simp only [List.mem_map, List.mem_filter, decide_eq_true_eq, hspec.missing, hspec.mismatches,
    mem_ambiguous]
  constructor
  · rintro ⟨⟨_, shares⟩, ⟨hmem, hmissing, hmismatched, hambiguous, _⟩, rfl⟩
    refine ⟨?_, hmissing, hmismatched, hambiguous⟩
    obtain ⟨item, hitem⟩ := List.exists_mem_of_ne_nil _ (hspec.entries _ hmem).1
    exact ⟨item.2, (linkedTo_of_item hmem hitem).2⟩
  · rintro ⟨⟨share, hshare⟩, hmissing, hmismatched, hambiguous⟩
    obtain ⟨shares, hmem, _⟩ := linkedTo_iff_mem.mp hshare
    exact ⟨(underlying, shares), ⟨hmem, hmissing, hmismatched, hambiguous,
      (length_eq_one_iff hmem).mpr hambiguous⟩, rfl⟩

/-- The first share of an underlying with shares is one it is linked to. -/
theorem firstShare_linked {share : MasterReference} (h : LinkedTo references underlying share) :
    ∃ first, (linksOf references).firstShare underlying = some first ∧
      LinkedTo references underlying first := by
  have hspec := linksOf_spec references
  obtain ⟨shares, hmem, _⟩ := linkedTo_iff_mem.mp h
  have hget := (Dict.mem_iff_get hspec.distinct.2.2 _ _).mp hmem
  cases shares with
  | nil => exact absurd rfl (hspec.entries _ hmem).1
  | cons first rest =>
    refine ⟨first.2, ?_, (linkedTo_of_item hmem List.mem_cons_self).2⟩
    unfold Links.firstShare
    rw [hget]
    rfl

/-! ## The two universes -/

theorem underlyingKey_inj {u v : UnderlyingInstrument} (h : underlyingKey u = underlyingKey v) : u = v := by
  obtain ⟨hexchange, hsymbol⟩ := Prod.mk.inj (toLex.injective h)
  cases u
  cases v
  simp_all

/-- What the live universe is: the underlyings by what the derivatives say of them, each list in the
    order of the keys, and a share of its own for each underlying. -/
structure CashEquityLiveUniverse.Spec (references : List MasterReference)
    (live : CashEquityLiveUniverse) : Prop where
  underlyings : ∀ u, u ∈ live.underlyings ↔
    (∃ share, LinkedTo references u share) ∧ ¬ Missing references u ∧ ¬ Mismatched references u ∧
      ¬ Ambiguous references u
  missing : ∀ u, u ∈ live.missingUnderlyings ↔ Missing references u
  ambiguous : ∀ u, u ∈ live.ambiguousUnderlyings ↔ Ambiguous references u
  mismatches : ∀ u, u ∈ live.symbolMismatches ↔ Mismatched references u
  shares : List.Forall₂ (LinkedTo references) live.underlyings live.cashReferences
  sorted : ∀ us ∈ [live.underlyings, live.missingUnderlyings, live.ambiguousUnderlyings,
    live.symbolMismatches], us.Pairwise fun u v => underlyingKey u < underlyingKey v

theorem forall₂_filterMap {α β : Type} {r : α → β → Prop} {f : α → Option β} {xs : List α}
    (h : ∀ x ∈ xs, ∃ y, f x = some y ∧ r x y) : List.Forall₂ r xs (xs.filterMap f) := by
  induction xs with
  | nil => exact .nil
  | cons x xs ih =>
    obtain ⟨y, hy, hr⟩ := h x List.mem_cons_self
    rw [List.filterMap_cons_some hy]
    exact .cons hr (ih fun x' hx' => h x' (List.mem_cons_of_mem _ hx'))

theorem resolve_spec (references : List MasterReference) :
    (resolveNseCashEquityLiveUniverse references).Spec references := by
  have hspec := linksOf_spec references
  obtain ⟨hmissing, hmismatches, hkeys⟩ := hspec.distinct
  have hsorted {us : List UnderlyingInstrument} (h : us.Nodup) :
      (sortBy underlyingKey us).Pairwise fun u v => underlyingKey u < underlyingKey v :=
    pairwise_lt_sortBy h fun _ _ _ _ => underlyingKey_inj
  have hfilter (p : UnderlyingInstrument × Dict String MasterReference → Bool) :
      (((linksOf references).byUnderlying.filter p).map (·.1)).Nodup :=
    hkeys.sublist (List.filter_sublist.map _)
  refine ⟨fun u => mem_sortBy.trans mem_resolved, fun u => mem_sortBy.trans (hspec.missing u),
    fun u => mem_sortBy.trans mem_ambiguous, fun u => mem_sortBy.trans (hspec.mismatches u), ?_, ?_⟩
  · refine forall₂_filterMap fun u hu => ?_
    obtain ⟨⟨share, hshare⟩, _⟩ := mem_resolved.mp (mem_sortBy.mp hu)
    exact firstShare_linked hshare
  · intro us hus
    simp only [resolveNseCashEquityLiveUniverse, List.mem_cons, List.not_mem_nil, or_false] at hus
    rcases hus with rfl | rfl | rfl | rfl
    · exact hsorted (hfilter _)
    · exact hsorted hmissing
    · exact hsorted (hfilter _)
    · exact hsorted hmismatches

/-- Where no underlying is ambiguous, the share is determined. -/
theorem eq_of_forall₂_linkedTo {us : List UnderlyingInstrument} {shares others : List MasterReference}
    (hone : ∀ u ∈ us, ¬ Ambiguous references u) (h : List.Forall₂ (LinkedTo references) us shares)
    (h' : List.Forall₂ (LinkedTo references) us others) : shares = others := by
  induction h generalizing others with
  | nil =>
    cases h'
    rfl
  | @cons u share us shares hlinked _ ih =>
    obtain _ | ⟨hlinked', hrest⟩ := h'
    have hhead : ∀ other, LinkedTo references u other → share = other := by
      intro other hother
      by_contra hne
      exact hone u List.mem_cons_self ⟨share, other, hlinked, hother, hne⟩
    rw [hhead _ hlinked', ih (fun v hv => hone v (List.mem_cons_of_mem _ hv)) hrest]

/-- The rows determine the live universe by what they say. -/
theorem CashEquityLiveUniverse.Spec.eq_of_said {other : List MasterReference}
    {live live' : CashEquityLiveUniverse} (h : live.Spec references) (h' : live'.Spec other)
    (hsaid : ∀ u verdict, Says references references u verdict ↔ Says other other u verdict) :
    live = live' := by
  have hlinked : LinkedTo references = LinkedTo other :=
    funext fun u => funext fun share => propext (hsaid u (.linked share))
  have hambiguous (u : UnderlyingInstrument) : Ambiguous references u ↔ Ambiguous other u := by
    unfold Ambiguous
    rw [hlinked]
  have hsame {us vs : List UnderlyingInstrument} {p : UnderlyingInstrument → Prop}
      (hus : us.Pairwise fun u v => underlyingKey u < underlyingKey v)
      (hvs : vs.Pairwise fun u v => underlyingKey u < underlyingKey v)
      (hp : ∀ u, u ∈ us ↔ p u) (hp' : ∀ u, u ∈ vs ↔ p u) : us = vs :=
    eq_of_pairwise_lt hus hvs fun u => (hp u).trans (hp' u).symm
  have hunderlyings : live.underlyings = live'.underlyings := by
    refine hsame (h.sorted _ (by simp)) (h'.sorted _ (by simp)) h.underlyings fun u => ?_
    rw [h'.underlyings u, hlinked, hambiguous]
    unfold Missing Mismatched
    rw [hsaid, hsaid]
  have hmissing : live.missingUnderlyings = live'.missingUnderlyings :=
    hsame (h.sorted _ (by simp)) (h'.sorted _ (by simp)) h.missing
      fun u => (h'.missing u).trans (hsaid u .missing).symm
  have hambiguous' : live.ambiguousUnderlyings = live'.ambiguousUnderlyings :=
    hsame (h.sorted _ (by simp)) (h'.sorted _ (by simp)) h.ambiguous
      fun u => (h'.ambiguous u).trans (hambiguous u).symm
  have hmismatches : live.symbolMismatches = live'.symbolMismatches :=
    hsame (h.sorted _ (by simp)) (h'.sorted _ (by simp)) h.mismatches
      fun u => (h'.mismatches u).trans (hsaid u .mismatch).symm
  have hshares : live.cashReferences = live'.cashReferences := by
    refine eq_of_forall₂_linkedTo (fun u hu => ((h.underlyings u).mp hu).2.2.2) h.shares ?_
    rw [hlinked, hunderlyings]
    exact h'.shares
  cases live
  cases live'
  simp_all

theorem candidateLink_eq_some {derivative : MasterReference} {link : UnderlyingInstrument × String}
    (h : candidateLink derivative = some link) :
    derivative.instrument.underlying = some link.1 ∧
      (derivative.providerInstrumentType = "FUTSTK" ∨ derivative.providerInstrumentType = "OPTSTK") := by
  unfold candidateLink at h
  split at h
  · next hunderlying _ =>
    split at h
    · next hcandidate =>
      cases h
      exact ⟨hunderlying, hcandidate.2.2⟩
    · cases h
  · cases h

/-- The derivatives of the universe are those that are linked. -/
theorem isProductionDerivative_iff {derivative : MasterReference} :
    isProductionDerivative (cashEquities references) derivative = true ↔
      ∃ underlying share, linkVerdict (bySecurityId references) (cashEquities references) derivative =
        some (underlying, .linked share) := by
  constructor
  · intro h
    unfold isProductionDerivative at h
    unfold linkVerdict
    cases hlink : candidateLink derivative with
    | none => simp [hlink] at h
    | some link =>
      obtain ⟨underlying, securityId⟩ := link
      cases hcash : (cashEquities references).get securityId with
      | none => simp [hlink, hcash] at h
      | some share =>
        simp only [hlink, hcash, decide_eq_true_eq] at h
        cases hall : (bySecurityId references).get securityId with
        | none =>
          rw [cashEquities_get_eq_none hall] at hcash
          cases hcash
        | some _ => exact ⟨underlying, share, by simp [hall, hcash, h]⟩
  · rintro ⟨underlying, share, h⟩
    obtain ⟨hlink, hcash, hsymbol⟩ := linkVerdict_linked h
    unfold isProductionDerivative
    simp [hlink, hcash, hsymbol]

/-- The underlyings of the derivative universe are those that are linked to some share. -/
theorem mem_derived_underlyings : underlying ∈ (deriveEquityFnoUniverse references).underlyings ↔
    ∃ share, LinkedTo references underlying share := by
  unfold deriveEquityFnoUniverse
  simp only [mem_sortBy, List.mem_dedup, List.mem_filterMap, List.mem_append, List.mem_filter,
    decide_eq_true_eq]
  constructor
  · rintro ⟨derivative, hmem, hunderlying⟩
    have hproduction : derivative ∈ references ∧
        isProductionDerivative (cashEquities references) derivative = true := by
      rcases hmem with hmem | hmem
      · exact hmem.1
      · exact hmem.1
    obtain ⟨named, share, hverdict⟩ := isProductionDerivative_iff.mp hproduction.2
    have hnamed := (candidateLink_eq_some (linkVerdict_linked hverdict).1).1
    rw [hunderlying] at hnamed
    cases hnamed
    exact ⟨share, derivative, hproduction.1, hverdict⟩
  · rintro ⟨share, derivative, hmem, hverdict⟩
    have hproduction := isProductionDerivative_iff.mpr ⟨_, _, hverdict⟩
    obtain ⟨hunderlying, htype⟩ := candidateLink_eq_some (linkVerdict_linked hverdict).1
    refine ⟨derivative, ?_, hunderlying⟩
    rcases htype with htype | htype
    · exact Or.inl ⟨⟨hmem, hproduction⟩, htype⟩
    · exact Or.inr ⟨⟨hmem, hproduction⟩, htype⟩

theorem pairwise_derived_underlyings (references : List MasterReference) :
    (deriveEquityFnoUniverse references).underlyings.Pairwise
      fun u v => underlyingKey u < underlyingKey v :=
  pairwise_lt_sortBy (List.nodup_dedup _) fun _ _ _ _ => underlyingKey_inj

/-- With one share for each derivative the same derivatives are linked in every order. -/
theorem isProductionDerivative_of_perm {other : List MasterReference} (h : references.Perm other)
    (hone : OneShareEach references) {derivative : MasterReference} (hmem : derivative ∈ references) :
    isProductionDerivative (cashEquities references) derivative =
      isProductionDerivative (cashEquities other) derivative := by
  unfold isProductionDerivative
  cases hlink : candidateLink derivative with
  | none => rfl
  | some link => simp only [cashEquities_get_of_perm h (hone derivative hmem link hlink)]

theorem productionDerivatives_perm {other : List MasterReference} (h : references.Perm other)
    (hone : OneShareEach references) :
    (references.filter (isProductionDerivative (cashEquities references))).Perm
      (other.filter (isProductionDerivative (cashEquities other))) := by
  rw [List.filter_congr fun derivative hmem => isProductionDerivative_of_perm h hone hmem]
  exact h.filter _

/-- No two derivatives of the universe have the same sort key. -/
def DistinctSortKeys (references : List MasterReference) : Prop :=
  let stockDerivatives := references.filter (isProductionDerivative (cashEquities references))
  ∀ a ∈ stockDerivatives, ∀ b ∈ stockDerivatives, masterSortKey a = masterSortKey b → a = b

/-- With one share for each derivative the order of the rows decides among equal sort keys only. -/
theorem derive_of_perm {other : List MasterReference} (h : references.Perm other)
    (hone : OneShareEach references) :
    (deriveEquityFnoUniverse references).futures.Perm (deriveEquityFnoUniverse other).futures ∧
      (deriveEquityFnoUniverse references).options.Perm (deriveEquityFnoUniverse other).options ∧
      (deriveEquityFnoUniverse references).underlyings = (deriveEquityFnoUniverse other).underlyings ∧
      (DistinctSortKeys references → deriveEquityFnoUniverse references = deriveEquityFnoUniverse other) := by
  have hderivatives := productionDerivatives_perm h hone
  have hunderlyings : (deriveEquityFnoUniverse references).underlyings =
      (deriveEquityFnoUniverse other).underlyings := by
    refine eq_of_pairwise_lt (pairwise_derived_underlyings _) (pairwise_derived_underlyings _)
      fun u => ?_
    rw [mem_derived_underlyings, mem_derived_underlyings]
    exact exists_congr fun share => says_of_perm h hone _
  refine ⟨?_, ?_, hunderlyings, fun hkeys => ?_⟩
  · exact sortBy_perm.trans ((hderivatives.filter _).trans sortBy_perm.symm)
  · exact sortBy_perm.trans ((hderivatives.filter _).trans sortBy_perm.symm)
  · have hsorted (p : MasterReference → Bool) :
        sortBy masterSortKey
            ((references.filter (isProductionDerivative (cashEquities references))).filter p) =
          sortBy masterSortKey ((other.filter (isProductionDerivative (cashEquities other))).filter p) :=
      sortBy_of_perm (hderivatives.filter p) fun a ha b hb =>
        hkeys a (List.mem_filter.mp ha).1 b (List.mem_filter.mp hb).1
    have hfutures := hsorted fun reference => reference.providerInstrumentType = "FUTSTK"
    have hoptions := hsorted fun reference => reference.providerInstrumentType = "OPTSTK"
    simp only [deriveEquityFnoUniverse, hfutures, hoptions]

/-- A candidate whose id belongs to no row or to a share has something to say of its underlying. -/
theorem says_of_candidate {derivative : MasterReference} {securityId : String}
    (hmem : derivative ∈ references) (hlink : candidateLink derivative = some (underlying, securityId))
    (h : (∀ reference ∈ references, reference.securityId ≠ securityId) ∨
      ∃ reference ∈ references, isNseEquityShare reference = true ∧ reference.securityId = securityId) :
    Missing references underlying ∨ Mismatched references underlying ∨
      ∃ share, LinkedTo references underlying share := by
  rcases h with hnone | ⟨share, hshare, hcash, hid⟩
  · refine Or.inl ⟨derivative, hmem, ?_⟩
    unfold linkVerdict
    simp [hlink, bySecurityId_get_eq_none_iff.mpr hnone]
  · right
    cases hget : (cashEquities references).get securityId with
    | none =>
      exact absurd hid (bySecurityId_get_eq_none_iff.mp hget share (List.mem_filter.mpr ⟨hshare, hcash⟩))
    | some bound =>
      cases hall : (bySecurityId references).get securityId with
      | none =>
        rw [cashEquities_get_eq_none hall] at hget
        cases hget
      | some _ =>
        by_cases hsymbol : bound.instrument.symbol = underlying.symbol
        · refine Or.inr ⟨bound, derivative, hmem, ?_⟩
          unfold linkVerdict
          simp [hlink, hget, hall, hsymbol]
        · refine Or.inl ⟨derivative, hmem, ?_⟩
          unfold linkVerdict
          simp [hlink, hget, hall, hsymbol]

/-- Where the id that a derivative names belongs to one share at most, the live universe is the same for
    every order of the rows, and the derivative universe up to the order of equal sort keys.  In every
    master an underlying of a candidate that names a share or no row is reported, among the resolved
    only where it is in no other list; each resolved underlying has a share of its symbol; and where
    nothing is reported otherwise the two universes have the same underlyings. -/
theorem universes_agree (references : List MasterReference) :
    let live := resolveNseCashEquityLiveUniverse references
    let derived := deriveEquityFnoUniverse references
    (∀ other, references.Perm other → OneShareEach references →
      live = resolveNseCashEquityLiveUniverse other ∧
        derived.underlyings = (deriveEquityFnoUniverse other).underlyings ∧
        derived.futures.Perm (deriveEquityFnoUniverse other).futures ∧
        derived.options.Perm (deriveEquityFnoUniverse other).options ∧
        (DistinctSortKeys references → derived = deriveEquityFnoUniverse other)) ∧
    (∀ derivative ∈ references, ∀ underlying securityId,
      candidateLink derivative = some (underlying, securityId) →
      ((∀ reference ∈ references, reference.securityId ≠ securityId) ∨
        ∃ reference ∈ references, isNseEquityShare reference = true ∧
          reference.securityId = securityId) →
      underlying ∈ live.underlyings ∨ underlying ∈ live.missingUnderlyings ∨
        underlying ∈ live.ambiguousUnderlyings ∨ underlying ∈ live.symbolMismatches) ∧
    (∀ underlying ∈ live.underlyings, underlying ∉ live.missingUnderlyings ∧
      underlying ∉ live.ambiguousUnderlyings ∧ underlying ∉ live.symbolMismatches) ∧
    List.Forall₂ (fun underlying share => share ∈ references ∧ isNseEquityShare share = true ∧
      share.instrument.symbol = underlying.symbol) live.underlyings live.cashReferences ∧
    (live.missingUnderlyings = [] → live.ambiguousUnderlyings = [] → live.symbolMismatches = [] →
      live.underlyings = derived.underlyings) := by
  intro live derived
  have hspec : live.Spec references := resolve_spec references
  refine ⟨fun other h hone => ?_, fun derivative hmem u securityId hlink hid => ?_, fun u hu => ?_, ?_,
    fun hmissing hambiguous hmismatches => ?_⟩
  · obtain ⟨hfutures, hoptions, hunderlyings, hkeys⟩ := derive_of_perm h hone
    refine ⟨?_, hunderlyings, hfutures, hoptions, hkeys⟩
    exact hspec.eq_of_said (resolve_spec other) fun u verdict => says_of_perm h hone verdict
  · rw [hspec.underlyings, hspec.missing, hspec.ambiguous, hspec.mismatches]
    have hsaid := says_of_candidate hmem hlink hid
    tauto
  · obtain ⟨_, hmissing, hmismatched, hambiguous⟩ := (hspec.underlyings u).mp hu
    rw [hspec.missing, hspec.ambiguous, hspec.mismatches]
    exact ⟨hmissing, hambiguous, hmismatched⟩
  · refine hspec.shares.imp fun u share hlinked => ?_
    obtain ⟨_, _, hverdict⟩ := hlinked
    obtain ⟨_, hget, hsymbol⟩ := linkVerdict_linked hverdict
    obtain ⟨hmem, hcash, _⟩ := cashEquities_get hget
    exact ⟨hmem, hcash, hsymbol⟩
  · refine eq_of_pairwise_lt (hspec.sorted _ (by simp)) (pairwise_derived_underlyings references)
      fun u => ?_
    rw [hspec.underlyings, mem_derived_underlyings, ← hspec.missing, ← hspec.ambiguous,
      ← hspec.mismatches, hmissing, hambiguous, hmismatches]
    simp

/-! ## Samples -/

/-- The row of a share with the id 101. -/
def shareRow (instrument : Instrument) : MasterReference where
  instrument
  securityId := "101"
  exchangeSegment := some "NSE_EQ"
  underlyingSecurityId := none
  providerInstrumentType := "EQUITY"

theorem listed_ne : (none : Option String) ≠ some "" ∧ some "ES" ≠ some "" ∧
    (none : Option String) ≠ some "" := by decide

theorem tcs_symbol_ne : "TCS" ≠ "" := by decide

def relianceShare : MasterReference :=
  shareRow { reliance with listingType := some "ES", optional_ne := listed_ne }

def tcsShare : MasterReference :=
  shareRow { reliance with
    symbol := "TCS", listingType := some "ES", symbol_ne := tcs_symbol_ne, optional_ne := listed_ne }

theorem future_contract : contractIdentity .future true true false false = true := rfl

/-- The row of a future of Reliance, whose share is to have the id 101. -/
def futureRow (displayName : Option String)
    (hname : displayName ≠ some "" ∧ (none : Option String) ≠ some "" ∧ (none : Option String) ≠ some "") :
    MasterReference where
  instrument :=
    { exchange := "NSE", marketSegment := .derivatives, symbol := "RELIANCE", instrumentClass := .future,
      underlying := some ⟨"NSE", "RELIANCE", reliance.exchange_ne, reliance.symbol_ne⟩, displayName,
      expiry := some 20026, strikePrice := none, optionType := none, exchange_ne := reliance.exchange_ne,
      symbol_ne := reliance.symbol_ne, optional_ne := hname, contract := future_contract }
  securityId := "201"
  exchangeSegment := some "NSE_FNO"
  underlyingSecurityId := some "101"
  providerInstrumentType := "FUTSTK"

theorem named_ne : some "RELIANCE FUT" ≠ some "" ∧ (none : Option String) ≠ some "" ∧
    (none : Option String) ≠ some "" := by decide

def unnamedFuture : MasterReference := futureRow none reliance.optional_ne

def namedFuture : MasterReference := futureRow (some "RELIANCE FUT") named_ne

/-- Futures of one sort key stay in the order of the rows. -/
theorem futures_of_sameKey {a b : MasterReference} (rows : List MasterReference)
    (hrows : (rows.filter (isProductionDerivative (cashEquities rows))).filter
      (fun reference => reference.providerInstrumentType = "FUTSTK") = [a, b])
    (hkey : masterSortKey a = masterSortKey b) :
    (deriveEquityFnoUniverse rows).futures = [a, b] := by
  simp only [deriveEquityFnoUniverse, hrows]
  exact sortBy_eq_self (List.pairwise_pair.mpr hkey.le)

theorem oneShareEach_sample : OneShareEach [relianceShare, unnamedFuture, namedFuture] := by
  have hshare : ∀ a ∈ [relianceShare, unnamedFuture, namedFuture], isNseEquityShare a = true →
      a = relianceShare := by
    intro a ha hcash
    simp only [List.mem_cons, List.not_mem_nil, or_false] at ha
    rcases ha with rfl | rfl | rfl
    · rfl
    · exact absurd hcash (by decide)
    · exact absurd hcash (by decide)
  intro _ _ _ _ a ha b hb hcash hcash' _ _
  rw [hshare a ha hcash, hshare b hb hcash']

/-- Of two shares with one id the last one is linked, and of two futures with one sort key the first one
    comes first: with the same rows in another order both universes are others. -/
theorem last_share_wins :
    let rows := [relianceShare, tcsShare, unnamedFuture]
    let futures := [relianceShare, unnamedFuture, namedFuture]
    (rows.map (·.instrument)).Nodup ∧ (futures.map (·.instrument)).Nodup ∧
      ¬ (∀ references other : List MasterReference, (references.map (·.instrument)).Nodup →
        references.Perm other →
        resolveNseCashEquityLiveUniverse references = resolveNseCashEquityLiveUniverse other) ∧
      ¬ (∀ references other : List MasterReference, (references.map (·.instrument)).Nodup →
        references.Perm other → OneShareEach references →
        deriveEquityFnoUniverse references = deriveEquityFnoUniverse other) := by
  intro rows futures
  have hrows : (rows.map (·.instrument)).Nodup := by decide
  have hfutures : (futures.map (·.instrument)).Nodup := by decide
  refine ⟨hrows, hfutures, fun hclaim => ?_, fun hclaim => ?_⟩
  · have hsame := hclaim rows [tcsShare, relianceShare, unnamedFuture] hrows (List.Perm.swap _ _ _)
    have hlength := congrArg (·.underlyings.length) hsame
    revert hlength
    decide
  · have hsame := hclaim futures [relianceShare, namedFuture, unnamedFuture] hfutures
      ((List.Perm.swap _ _ _).cons _) oneShareEach_sample
    have hsame := congrArg (·.futures) hsame
    have horder := (futures_of_sameKey futures rfl rfl).symm.trans
      (hsame.trans (futures_of_sameKey _ rfl rfl))
    have hnames := congrArg (List.map (·.instrument.displayName)) horder
    revert hnames
    decide

end ApexScan.Dhan
