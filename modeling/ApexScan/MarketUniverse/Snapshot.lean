import ApexScan.Lib.IsoDate
import ApexScan.Lib.Sha256
import ApexScan.Schemas.MarketData
import Mathlib.Data.List.Sort
import Mathlib.Data.String.Basic

/-!
# Universe snapshots (`app/market_universe/snapshot.py`, `resolver.py`)

The live universe of one trading date.  A snapshot is addressed by its content: the SHA-256 of a
canonical JSON text of its date, instruments and provenance, which leaves out its version, its state
and the time of its promotion.

* `LogicalContent`, `canonicalContent`, `contentHash` — what is hashed, and the digest.
* `UniverseSnapshot`, with what its validator checks; `promotedAs`.
* `ResolutionResult` with `validatePromotable`, the gate of a promotion.
-/

set_option autoImplicit false

namespace ApexScan.Universe

open Lib

/-! ## JSON text -/

/-- One character of a JSON string, as `json.dumps(..., ensure_ascii=False)` writes it. -/
def escaped (c : Char) : List Char :=
  let backslash := Char.ofNat 92
  match c.toNat with
  | 34 => [backslash, c]
  | 92 => [backslash, c]
  | 8 => [backslash, 'b']
  | 9 => [backslash, 't']
  | 10 => [backslash, 'n']
  | 12 => [backslash, 'f']
  | 13 => [backslash, 'r']
  | n => if n < 32 then
      [backslash, 'u', '0', '0', Sha256.hexDigit (n / 16), Sha256.hexDigit (n % 16)]
    else [c]

def jsonString (s : String) : List Char :=
  Char.ofNat 34 :: s.toList.flatMap escaped ++ [Char.ofNat 34]

def jsonArray (items : List (List Char)) : List Char :=
  Char.ofNat 91 :: [','].intercalate items ++ [Char.ofNat 93]

/-- An object with its members in the given order. -/
def jsonObject (members : List (String × List Char)) : List Char :=
  Char.ofNat 123 :: [','].intercalate (members.map fun m => jsonString m.1 ++ ':' :: m.2) ++
    [Char.ofNat 125]

/-! ## Content -/

/-- A stripped text of 1 to `max` characters. -/
abbrev Text (max : ℕ) := {s : String // 1 ≤ s.length ∧ s.length ≤ max}

structure SourceProvenance where
  fnoSource : Text 128
  fnoVersion : Text 64
  fnoEffectiveDate : Int
  instrumentMasterSource : Text 128
  instrumentMasterVersion : Text 64
  sectorDatasetId : Text 128
  sectorVersion : Text 64
  deriving DecidableEq

/-- `instrument_identity`. -/
def instrumentIdentity (instrument : Instrument) : String :=
  instrument.exchange ++ ":" ++ instrument.symbol

structure UniverseInstrument where
  instrument : Instrument
  providerSecurityId : Text 64
  exchangeSegment : Text 32
  sector : Option (Text 64)
  deriving DecidableEq

def UniverseInstrument.identity (i : UniverseInstrument) : String := instrumentIdentity i.instrument

/-- What the content of a snapshot has of an instrument. -/
structure ContentEntry where
  identity : String
  providerSecurityId : Text 64
  exchangeSegment : Text 32
  sector : Option (Text 64)
  deriving DecidableEq

/-- The content that the fingerprint covers. -/
structure LogicalContent where
  tradingDate : Int
  instruments : List ContentEntry
  provenance : SourceProvenance
  deriving DecidableEq

/-- The content of a universe, its instruments sorted by identity. -/
def logicalContent (tradingDate : Int) (instruments : List UniverseInstrument)
    (provenance : SourceProvenance) : LogicalContent where
  tradingDate := tradingDate
  instruments := (instruments.insertionSort fun a b => a.identity ≤ b.identity).map fun item =>
    ⟨item.identity, item.providerSecurityId, item.exchangeSegment, item.sector⟩
  provenance := provenance

/-- `_canonical_content`, with the keys of every object in ascending order. -/
def canonicalContent (content : LogicalContent) : List Char :=
  jsonObject [
    ("instruments", jsonArray (content.instruments.map fun item => jsonObject [
      ("exchange_segment", jsonString item.exchangeSegment),
      ("identity", jsonString item.identity),
      ("provider_security_id", jsonString item.providerSecurityId),
      ("sector", item.sector.elim "null".toList fun sector => jsonString sector)])),
    ("provenance", jsonObject [
      ("fno_effective_date", jsonString (isoformat content.provenance.fnoEffectiveDate)),
      ("fno_source", jsonString content.provenance.fnoSource),
      ("fno_version", jsonString content.provenance.fnoVersion),
      ("instrument_master_source", jsonString content.provenance.instrumentMasterSource),
      ("instrument_master_version", jsonString content.provenance.instrumentMasterVersion),
      ("sector_dataset_id", jsonString content.provenance.sectorDatasetId),
      ("sector_version", jsonString content.provenance.sectorVersion)]),
    ("trading_date", jsonString (isoformat content.tradingDate))]

/-- `content_sha256`. -/
def contentHash (content : LogicalContent) : String :=
  Sha256.hexdigest ((canonicalContent content).flatMap fun c =>
    (String.utf8EncodeChar c).map UInt8.toNat)

/-! ## Snapshots -/

inductive SnapshotState where
  | candidate
  | promoted
  deriving DecidableEq, Repr

/-- A universe snapshot that its validator accepts. -/
structure UniverseSnapshot where
  schemaVersion : ℤ := 1
  universeVersion : ℕ
  tradingDate : Int
  effectiveAt : Int
  state : SnapshotState
  instruments : List UniverseInstrument
  sourceProvenance : SourceProvenance
  contentSha256 : String
  /-- Sorted by identity, without a repeated identity. -/
  increasing : instruments.Pairwise fun a b => a.identity < b.identity
  hash : contentSha256 = contentHash (logicalContent tradingDate instruments sourceProvenance)
  deriving DecidableEq

namespace UniverseSnapshot

def content (s : UniverseSnapshot) : LogicalContent :=
  logicalContent s.tradingDate s.instruments s.sourceProvenance

theorem contentSha256_eq (s : UniverseSnapshot) : s.contentSha256 = contentHash s.content := s.hash

/-- `promoted_as`: the content and its hash are kept. -/
def promotedAs (s : UniverseSnapshot) (universeVersion : ℕ) (effectiveAt : Int) : UniverseSnapshot :=
  { s with
    universeVersion := universeVersion
    state := .promoted
    effectiveAt := effectiveAt }

@[simp] theorem promotedAs_universeVersion (s : UniverseSnapshot) (v : ℕ) (t : Int) :
    (s.promotedAs v t).universeVersion = v := rfl

@[simp] theorem promotedAs_contentSha256 (s : UniverseSnapshot) (v : ℕ) (t : Int) :
    (s.promotedAs v t).contentSha256 = s.contentSha256 := rfl

@[simp] theorem promotedAs_content (s : UniverseSnapshot) (v : ℕ) (t : Int) :
    (s.promotedAs v t).content = s.content := rfl

@[simp] theorem promotedAs_tradingDate (s : UniverseSnapshot) (v : ℕ) (t : Int) :
    (s.promotedAs v t).tradingDate = s.tradingDate := rfl

theorem content_tradingDate (s : UniverseSnapshot) : s.content.tradingDate = s.tradingDate := rfl

end UniverseSnapshot

/-! ## Resolution results -/

inductive UnresolvedReason where
  | missingProviderMapping
  | conflictingProviderMapping
  deriving DecidableEq, Repr

structure UnresolvedInstrument where
  identity : String
  reason : UnresolvedReason
  deriving DecidableEq

structure ResolutionResult where
  candidate : UniverseSnapshot
  unresolved : List UnresolvedInstrument := []
  unclassifiedSector : List String := []

def ResolutionResult.isPromotable (r : ResolutionResult) : Bool :=
  r.unresolved.isEmpty && !r.candidate.instruments.isEmpty

/-- What the gate of a promotion raises. -/
inductive PromotionError where
  | validation
  | emptyUniverse
  deriving DecidableEq, Repr

/-- `validate_promotable`. -/
def validatePromotable (r : ResolutionResult) : Except PromotionError Unit :=
  if r.unresolved.isEmpty = false then .error .validation
  else if r.candidate.instruments.isEmpty then .error .emptyUniverse
  else .ok ()

theorem validatePromotable_iff (r : ResolutionResult) :
    validatePromotable r = .ok () ↔ r.isPromotable = true := by
  unfold validatePromotable ResolutionResult.isPromotable
  cases r.unresolved.isEmpty <;> cases r.candidate.instruments.isEmpty <;> simp

end ApexScan.Universe
