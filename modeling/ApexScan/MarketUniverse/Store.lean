import ApexScan.Lib.Directory
import ApexScan.Lib.Ranking
import ApexScan.MarketUniverse.Snapshot
import Mathlib.Data.Prod.Lex

/-!
# The store of promoted universes (`app/market_universe/store.py`)

`FileUniverseSnapshotStore` keeps each promoted snapshot in a file named by its version.  The
content of a file is the snapshot itself; the order in which `glob` lists the directory is not
specified, so every scan is made in an order of its own.

* `existingVersions`, `nextVersion`, `iterPromoted`, `findByContent`, `activeFor` — the reads.
* `linkVersion`, `allocate`, `promote` — a promotion that is not disturbed.
* `Published` — the version files are a log of snapshots, numbered from 1.
* `promote_spec` — a promotion returns the snapshot that has the content, or appends one to the log.

Main result: `promotion_takes_effect_iff`, whether the promoted content is the active one of its date
afterwards.  `returning_universe_is_not_active` is a history where it is not.
-/

set_option autoImplicit false

namespace ApexScan.Universe

open Lib

/-- `{version}.json`, and the temporary `.{version}.{content_sha256[:12]}.tmp`. -/
inductive FileName where
  | version (universeVersion : ℕ)
  | temp (universeVersion : ℕ) (hashPrefix : List Char)
  deriving DecidableEq

abbrev VersionsDir := Directory FileName UniverseSnapshot

abbrev VersionsGlob := Directory.Glob FileName UniverseSnapshot

/-- `int(path.stem)` of a version file. -/
def FileName.version? : FileName → Option ℕ
  | .version v => some v
  | .temp _ _ => none

/-- `_existing_versions`. -/
def existingVersions (glob : VersionsGlob) (d : VersionsDir) : List ℕ :=
  (glob.order d).filterMap FileName.version?

/-- `_next_version`. -/
def nextVersion (glob : VersionsGlob) (d : VersionsDir) : ℕ :=
  match (existingVersions glob d).max? with
  | some greatest => greatest + 1
  | none => 1

/-- `_iter_promoted`. -/
def iterPromoted (glob : VersionsGlob) (d : VersionsDir) : List UniverseSnapshot :=
  (existingVersions glob d).filterMap fun v => d.read (.version v)

/-- `_find_by_content`. -/
def findByContent (glob : VersionsGlob) (d : VersionsDir) (contentSha256 : String) :
    Option UniverseSnapshot :=
  (iterPromoted glob d).find? fun snapshot => snapshot.contentSha256 = contentSha256

/-- The key `(trading_date, universe_version)`. -/
def UniverseSnapshot.effectiveKey (s : UniverseSnapshot) : Int ×ₗ ℕ :=
  toLex (s.tradingDate, s.universeVersion)

/-- One round of the loop of `active_for`. -/
def better (tradingDate : Int) (best : Option UniverseSnapshot) (snapshot : UniverseSnapshot) :
    Option UniverseSnapshot :=
  if tradingDate < snapshot.tradingDate then best
  else
    match best with
    | none => some snapshot
    | some b => if b.effectiveKey < snapshot.effectiveKey then some snapshot else some b

/-- `active_for`. -/
def activeFor (glob : VersionsGlob) (d : VersionsDir) (tradingDate : Int) : Option UniverseSnapshot :=
  (iterPromoted glob d).foldl (better tradingDate) none

/-- The temporary file of a snapshot that is published as a version. -/
def tempName (version : ℕ) (promoted : UniverseSnapshot) : FileName :=
  .temp version (promoted.contentSha256.toList.take 12)

/-- What `promote` raises: the gate, the `FileNotFoundError` of `os.link`, or the `RuntimeError` of
    exhausted retries. -/
inductive PromoteError where
  | refused (error : PromotionError)
  | tempMissing
  | exhausted
  deriving DecidableEq

/-- `_link_version`; the directory is left without the temporary file in every case. -/
def linkVersion (d : VersionsDir) (version : ℕ) (promoted : UniverseSnapshot) :
    VersionsDir × Except LinkError Unit :=
  let temp := tempName version promoted
  let written := d.write temp promoted
  match written.link temp (.version version) with
  | .ok linked => (linked.unlink temp, .ok ())
  | .error e => (written.unlink temp, .error e)

/-- `_MAX_ALLOCATION_RETRIES`. -/
def maxAllocationRetries : ℕ := 64

/-- The allocation loop with the given number of attempts left; each attempt scans in an order of its
    own. -/
def allocate (glob : ℕ → VersionsGlob) (candidate : UniverseSnapshot) (effectiveAt : Int) :
    ℕ → VersionsDir → VersionsDir × Except PromoteError UniverseSnapshot
  | 0, d => (d, .error .exhausted)
  | attempts + 1, d =>
    let version := nextVersion (glob attempts) d
    let promoted := candidate.promotedAs version effectiveAt
    match linkVersion d version promoted with
    | (d', .ok ()) => (d', .ok promoted)
    | (d', .error .fileExists) => allocate glob candidate effectiveAt attempts d'
    | (d', .error .fileNotFound) => (d', .error .tempMissing)

/-- `promote`; the orders of listing are those of the search and of the attempts. -/
def promote (search : VersionsGlob) (glob : ℕ → VersionsGlob) (result : ResolutionResult)
    (effectiveAt : Int) (d : VersionsDir) : VersionsDir × Except PromoteError UniverseSnapshot :=
  match validatePromotable result with
  | .error e => (d, .error (.refused e))
  | .ok () =>
    match findByContent search d result.candidate.contentSha256 with
    | some existing => (d, .ok existing)
    | none => allocate glob result.candidate effectiveAt maxAllocationRetries d

/-! ## The log of promotions -/

/-- The version files are the snapshots of the log, numbered from 1. -/
structure Published (log : List UniverseSnapshot) (d : VersionsDir) : Prop where
  read_iff : ∀ v s, d.read (.version v) = some s ↔ s ∈ log ∧ s.universeVersion = v
  versions : log.map (·.universeVersion) = List.range' 1 log.length

section Published

variable {log : List UniverseSnapshot} {d : VersionsDir}

theorem published_empty : Published [] Directory.empty := by
  constructor
  · intro v s
    rw [Directory.read_empty]
    simp
  · rfl

theorem Published.version_mem (h : Published log d) {s : UniverseSnapshot} (hs : s ∈ log) :
    1 ≤ s.universeVersion ∧ s.universeVersion ≤ log.length := by
  have hmem : s.universeVersion ∈ log.map (·.universeVersion) := List.mem_map_of_mem hs
  rw [h.versions, List.mem_range'_1] at hmem
  omega

theorem Published.version_inj (h : Published log d) {s t : UniverseSnapshot} (hs : s ∈ log)
    (ht : t ∈ log) (hst : s.universeVersion = t.universeVersion) : s = t := by
  have hnodup : (log.map (·.universeVersion)).Nodup := by
    rw [h.versions]
    exact List.nodup_range'
  exact List.inj_on_of_nodup_map hnodup hs ht hst

/-- A version is taken iff it is one of the numbers of the log. -/
theorem Published.taken_iff (h : Published log d) (v : ℕ) :
    (d.read (.version v)).isSome ↔ 1 ≤ v ∧ v ≤ log.length := by
  rw [Option.isSome_iff_exists]
  constructor
  · rintro ⟨s, hs⟩
    obtain ⟨hmem, rfl⟩ := (h.read_iff v s).mp hs
    exact h.version_mem hmem
  · intro hv
    have hmem : v ∈ log.map (·.universeVersion) := by
      rw [h.versions, List.mem_range'_1]
      omega
    obtain ⟨s, hs, rfl⟩ := List.mem_map.mp hmem
    exact ⟨s, (h.read_iff _ s).mpr ⟨hs, rfl⟩⟩

theorem mem_existingVersions (glob : VersionsGlob) (d : VersionsDir) (v : ℕ) :
    v ∈ existingVersions glob d ↔ (d.read (.version v)).isSome := by
  unfold existingVersions
  rw [← Directory.mem_order_iff glob, List.mem_filterMap]
  constructor
  · rintro ⟨name, hname, hv⟩
    cases name with
    | version w =>
      cases hv
      exact hname
    | temp w x => cases hv
  · intro hv
    exact ⟨.version v, hv, rfl⟩

theorem Published.nextVersion (h : Published log d) (glob : VersionsGlob) :
    nextVersion glob d = log.length + 1 := by
  have hmem (v : ℕ) : v ∈ existingVersions glob d ↔ 1 ≤ v ∧ v ≤ log.length := by
    rw [mem_existingVersions, h.taken_iff]
  unfold Universe.nextVersion
  cases hmax : (existingVersions glob d).max? with
  | none =>
    have hnil := List.max?_eq_none_iff.mp hmax
    have := hmem 1
    rw [hnil] at this
    simp only [List.not_mem_nil, false_iff] at this
    simp only
    omega
  | some greatest =>
    obtain ⟨hgreatest, hbound⟩ := List.max?_eq_some_iff.mp hmax
    rw [hmem] at hgreatest
    have hlast := hbound log.length ((hmem _).mpr ⟨by omega, le_refl _⟩)
    simp only
    omega

theorem Published.mem_iterPromoted (h : Published log d) (glob : VersionsGlob)
    (s : UniverseSnapshot) : s ∈ iterPromoted glob d ↔ s ∈ log := by
  unfold iterPromoted
  rw [List.mem_filterMap]
  constructor
  · rintro ⟨v, _, hs⟩
    exact ((h.read_iff v s).mp hs).1
  · intro hs
    have hread := (h.read_iff s.universeVersion s).mpr ⟨hs, rfl⟩
    refine ⟨s.universeVersion, ?_, hread⟩
    rw [mem_existingVersions, hread]
    rfl

theorem Published.findByContent_some (h : Published log d) {glob : VersionsGlob} {sha : String}
    {s : UniverseSnapshot} (hs : findByContent glob d sha = some s) :
    s ∈ log ∧ s.contentSha256 = sha := by
  have hmem := List.mem_of_find?_eq_some hs
  have hsha := List.find?_some hs
  rw [decide_eq_true_eq] at hsha
  exact ⟨(h.mem_iterPromoted glob s).mp hmem, hsha⟩

theorem Published.findByContent_none (h : Published log d) {glob : VersionsGlob} {sha : String}
    (hnone : findByContent glob d sha = none) : ∀ s ∈ log, s.contentSha256 ≠ sha := by
  intro s hs
  have := List.find?_eq_none.mp hnone s ((h.mem_iterPromoted glob s).mpr hs)
  simpa using this

/-! ## The active snapshot -/

/-- The order of dates, by the instance that computes. -/
local instance (priority := high) datePreorder : Preorder ℤ := Int.instLinearOrder.toPreorder

theorem foldl_better (tradingDate : Int) (snapshots : List UniverseSnapshot) :
    snapshots.foldl (better tradingDate) none =
      (snapshots.filter fun s => s.tradingDate ≤ tradingDate).argmax (·.effectiveKey) := by
  induction snapshots using List.reverseRecOn with
  | nil => rfl
  | append_singleton snapshots s ih =>
    rw [List.foldl_concat, ih, List.filter_append, List.filter_singleton]
    unfold better
    by_cases hdate : s.tradingDate ≤ tradingDate
    · rw [if_neg (not_lt.mpr hdate), decide_eq_true hdate, cond_true, List.argmax_concat]
      cases (snapshots.filter fun s => s.tradingDate ≤ tradingDate).argmax (·.effectiveKey) with
      | none => rfl
      | some b => rfl
    · rw [if_pos (not_le.mp hdate), decide_eq_false hdate, cond_false, List.append_nil]

/-- The active snapshot is the greatest by date and version among those of the date or before. -/
theorem Published.activeFor_iff (h : Published log d) (glob : VersionsGlob) (tradingDate : Int)
    (s : UniverseSnapshot) :
    activeFor glob d tradingDate = some s ↔ s ∈ log ∧ s.tradingDate ≤ tradingDate ∧
      ∀ t ∈ log, t.tradingDate ≤ tradingDate → t.effectiveKey ≤ s.effectiveKey := by
  have hmem (t : UniverseSnapshot) :
      t ∈ (iterPromoted glob d).filter (fun s => s.tradingDate ≤ tradingDate) ↔
        t ∈ log ∧ t.tradingDate ≤ tradingDate := by
    rw [List.mem_filter, h.mem_iterPromoted, decide_eq_true_eq]
  unfold activeFor
  rw [foldl_better]
  constructor
  · intro hs
    obtain ⟨hlog, hdate⟩ := (hmem s).mp (List.argmax_mem hs)
    refine ⟨hlog, hdate, fun t ht htdate => ?_⟩
    exact List.le_of_mem_argmax ((hmem t).mpr ⟨ht, htdate⟩) hs
  · rintro ⟨hlog, hdate, hmax⟩
    cases hfound : ((iterPromoted glob d).filter fun s => s.tradingDate ≤ tradingDate).argmax
        (·.effectiveKey) with
    | none =>
      have hin := (hmem s).mpr ⟨hlog, hdate⟩
      rw [List.argmax_eq_none.mp hfound] at hin
      cases hin
    | some m =>
      obtain ⟨hmlog, hmdate⟩ := (hmem m).mp (List.argmax_mem hfound)
      have hge : s.effectiveKey ≤ m.effectiveKey :=
        List.le_of_mem_argmax ((hmem s).mpr ⟨hlog, hdate⟩) hfound
      have hkey := le_antisymm (hmax m hmlog hmdate) hge
      rw [h.version_inj hmlog hlog (congrArg (fun k => (ofLex k).2) hkey)]

/-- The active snapshot depends on the snapshots of the date or before. -/
theorem activeFor_congr {log' : List UniverseSnapshot} {d' : VersionsDir} (h : Published log d)
    (h' : Published log' d') (glob glob' : VersionsGlob) {tradingDate : Int}
    (hsame : ∀ s, s.tradingDate ≤ tradingDate → (s ∈ log ↔ s ∈ log')) :
    activeFor glob d tradingDate = activeFor glob' d' tradingDate := by
  apply Option.ext
  intro s
  rw [h.activeFor_iff, h'.activeFor_iff]
  constructor
  · rintro ⟨hs, hdate, hmax⟩
    exact ⟨(hsame s hdate).mp hs, hdate, fun t ht htdate => hmax t ((hsame t htdate).mpr ht) htdate⟩
  · rintro ⟨hs, hdate, hmax⟩
    exact ⟨(hsame s hdate).mpr hs, hdate, fun t ht htdate => hmax t ((hsame t htdate).mp ht) htdate⟩

/-! ## One promotion -/

/-- The next number is appended to the log. -/
theorem Published.append (h : Published log d) {d' : VersionsDir} {promoted : UniverseSnapshot}
    (hversion : promoted.universeVersion = log.length + 1)
    (hread : d'.read (.version (log.length + 1)) = some promoted)
    (hkept : ∀ v, v ≠ log.length + 1 → d'.read (.version v) = d.read (.version v)) :
    Published (log ++ [promoted]) d' := by
  constructor
  · intro v s
    rw [List.mem_append, List.mem_singleton]
    by_cases hv : v = log.length + 1
    · subst hv
      rw [hread, Option.some.injEq]
      constructor
      · rintro rfl
        exact ⟨Or.inr rfl, hversion⟩
      · rintro ⟨hs | hs, hsv⟩
        · have := (h.version_mem hs).2
          omega
        · exact hs.symm
    · rw [hkept v hv, h.read_iff]
      constructor
      · rintro ⟨hs, hsv⟩
        exact ⟨Or.inl hs, hsv⟩
      · rintro ⟨hs | rfl, hsv⟩
        · exact ⟨hs, hsv⟩
        · exact absurd (hsv.symm.trans hversion) hv
  · rw [List.map_append, h.versions, List.length_append, List.length_singleton, List.range'_concat]
    simp only [List.map_cons, List.map_nil, one_mul, hversion, Nat.add_comm]

/-- Nothing but version files is in the directory. -/
def Quiet (d : VersionsDir) : Prop := ∀ v x, d.read (.temp v x) = none

theorem linkVersion_free {version : ℕ} (promoted : UniverseSnapshot) (hquiet : Quiet d)
    (hfree : d.read (.version version) = none) :
    ∃ d', linkVersion d version promoted = (d', .ok ()) ∧
      d'.read (.version version) = some promoted ∧ Quiet d' ∧
      ∀ v, v ≠ version → d'.read (.version v) = d.read (.version v) := by
  have habsent : d.read (tempName version promoted) = none := hquiet _ _
  have hother (name : FileName) (hne : name ≠ tempName version promoted) :
      (d.write (tempName version promoted) promoted).read name = d.read name :=
    Directory.read_write_of_absent habsent hne promoted
  obtain ⟨linked, hlink, hread, hkept⟩ := Directory.link_of_free
    (Directory.read_write_self d (tempName version promoted) promoted)
    ((hother (.version version) (by simp [tempName])).trans hfree)
  refine ⟨linked.unlink (tempName version promoted), ?_, ?_, ?_, ?_⟩
  · simp only [linkVersion, hlink]
  · rw [Directory.read_unlink_of_ne _ (by simp [tempName]), hread]
  · intro v x
    by_cases hname : FileName.temp v x = tempName version promoted
    · rw [hname, Directory.read_unlink_self]
    · rw [Directory.read_unlink_of_ne _ hname, hkept _ (by simp), hother _ hname]
      exact hquiet v x
  · intro v hv
    rw [Directory.read_unlink_of_ne _ (by simp [tempName]), hkept _ (by simpa using hv),
      hother _ (by simp [tempName])]

/-- **An undisturbed promotion returns the snapshot that has the content, or appends one.** -/
theorem promote_spec (h : Published log d) (hquiet : Quiet d) (search : VersionsGlob)
    (glob : ℕ → VersionsGlob) {result : ResolutionResult} (hresult : result.isPromotable = true)
    (effectiveAt : Int) :
    (∃ existing ∈ log, existing.contentSha256 = result.candidate.contentSha256 ∧
      promote search glob result effectiveAt d = (d, .ok existing)) ∨
    (∀ s ∈ log, s.contentSha256 ≠ result.candidate.contentSha256) ∧
      ∃ d' promoted, promoted = result.candidate.promotedAs (log.length + 1) effectiveAt ∧
        promote search glob result effectiveAt d = (d', .ok promoted) ∧
        Published (log ++ [promoted]) d' ∧ Quiet d' := by
  have hgate := (validatePromotable_iff result).mpr hresult
  unfold promote
  simp only [hgate]
  cases hfind : findByContent search d result.candidate.contentSha256 with
  | some existing =>
    obtain ⟨hmem, hsha⟩ := h.findByContent_some hfind
    exact Or.inl ⟨existing, hmem, hsha, rfl⟩
  | none =>
    have hfree : d.read (.version (log.length + 1)) = none := by
      have := h.taken_iff (log.length + 1)
      rw [← Option.not_isSome_iff_eq_none, this]
      omega
    obtain ⟨d', hlink, hread, hquiet', hkept⟩ :=
      linkVersion_free (result.candidate.promotedAs (log.length + 1) effectiveAt) hquiet hfree
    refine Or.inr ⟨h.findByContent_none hfind, d', _, rfl, ?_, h.append rfl hread hkept, hquiet'⟩
    unfold maxAllocationRetries
    simp only [allocate, h.nextVersion, hlink]

end Published

/-! ## Sequential histories -/

/-- A call of `promote`, with the orders in which its scans list the directory. -/
structure Promotion where
  result : ResolutionResult
  effectiveAt : Int
  search : VersionsGlob := Directory.entryOrder
  glob : ℕ → VersionsGlob := fun _ => Directory.entryOrder

namespace Promotion

def candidate (p : Promotion) : UniverseSnapshot := p.result.candidate

def run (p : Promotion) (d : VersionsDir) : VersionsDir × Except PromoteError UniverseSnapshot :=
  promote p.search p.glob p.result p.effectiveAt d

end Promotion

/-- The directory after one promotion after the other. -/
def promoteAll (history : List Promotion) : VersionsDir :=
  history.foldl (fun d p => (p.run d).1) Directory.empty

/-- What holds of the directory between two promotions. -/
structure Kept (log : List UniverseSnapshot) (d : VersionsDir) : Prop where
  published : Published log d
  quiet : Quiet d
  distinct : (log.map (·.contentSha256)).Nodup

theorem kept_empty : Kept [] Directory.empty :=
  ⟨published_empty, fun _ _ => Directory.read_empty _, List.nodup_nil⟩

theorem Kept.append {log : List UniverseSnapshot} {d d' : VersionsDir} (h : Kept log d)
    {promoted : UniverseSnapshot} (hnew : ∀ s ∈ log, s.contentSha256 ≠ promoted.contentSha256)
    (hpublished : Published (log ++ [promoted]) d') (hquiet : Quiet d') :
    Kept (log ++ [promoted]) d' := by
  refine ⟨hpublished, hquiet, ?_⟩
  rw [List.map_append, List.map_cons, List.map_nil, List.nodup_append]
  refine ⟨h.distinct, List.nodup_singleton _, ?_⟩
  intro sha hsha other hother
  obtain ⟨s, hs, rfl⟩ := List.mem_map.mp hsha
  rw [List.mem_singleton] at hother
  rw [hother]
  exact hnew s hs

/-- A promotion, refused or not, keeps a log in the directory. -/
theorem Kept.run {log : List UniverseSnapshot} {d : VersionsDir} (h : Kept log d) (p : Promotion) :
    ∃ log', Kept log' (p.run d).1 := by
  by_cases hresult : p.result.isPromotable = true
  · rcases promote_spec h.published h.quiet p.search p.glob hresult p.effectiveAt with
      ⟨existing, _, _, hrun⟩ | ⟨hnew, d', promoted, hp, hrun, hd', hq'⟩
    · refine ⟨log, ?_⟩
      unfold Promotion.run
      rwa [hrun]
    · refine ⟨log ++ [promoted], ?_⟩
      unfold Promotion.run
      rw [hrun]
      exact h.append (by rw [hp]; exact hnew) hd' hq'
  · refine ⟨log, ?_⟩
    unfold Promotion.run promote
    cases hgate : validatePromotable p.result with
    | ok u => exact absurd ((validatePromotable_iff p.result).mp hgate) hresult
    | error e => exact h

theorem kept_promoteAll (history : List Promotion) : ∃ log, Kept log (promoteAll history) := by
  unfold promoteAll
  induction history using List.reverseRecOn with
  | nil => exact ⟨[], kept_empty⟩
  | append_singleton history p ih =>
    rw [List.foldl_concat]
    obtain ⟨log, hlog⟩ := ih
    exact hlog.run p

/-! ## Taking effect -/

/-- What a promotion is for: its content is active on its date, and no earlier date is touched. -/
structure TakesEffect (candidate : UniverseSnapshot) (d d' : VersionsDir) : Prop where
  active : ∀ glob, ∃ s, activeFor glob d' candidate.tradingDate = some s ∧
    s.content = candidate.content
  never_ahead : ∀ glob tradingDate s, activeFor glob d' tradingDate = some s →
    s.tradingDate ≤ tradingDate
  later_only : ∀ glob glob' tradingDate,
    activeFor glob d tradingDate ≠ activeFor glob' d' tradingDate → candidate.tradingDate ≤ tradingDate

/-- A file that already has the hash has the content, and is the newest version of its date. -/
def NewestIfPromoted (candidate : UniverseSnapshot) (d : VersionsDir) : Prop :=
  ∀ v existing, d.read (.version v) = some existing →
    existing.contentSha256 = candidate.contentSha256 →
    existing.content = candidate.content ∧
      ∀ w s, d.read (.version w) = some s → s.tradingDate = candidate.tradingDate → w ≤ v

theorem effectiveKey_le_iff (s t : UniverseSnapshot) :
    t.effectiveKey ≤ s.effectiveKey ↔ t.tradingDate < s.tradingDate ∨
      t.tradingDate = s.tradingDate ∧ t.universeVersion ≤ s.universeVersion := by
  unfold UniverseSnapshot.effectiveKey
  rw [Prod.Lex.toLex_le_toLex]

section Effect

variable {log : List UniverseSnapshot} {d : VersionsDir} {candidate : UniverseSnapshot}

/-- On its own date a snapshot is active iff no other of the date has a greater version. -/
theorem Published.active_on_date_iff (h : Published log d) (glob : VersionsGlob)
    {s : UniverseSnapshot} (hs : s ∈ log) :
    activeFor glob d s.tradingDate = some s ↔
      ∀ t ∈ log, t.tradingDate = s.tradingDate → t.universeVersion ≤ s.universeVersion := by
  rw [h.activeFor_iff]
  constructor
  · rintro ⟨_, _, hmax⟩ t ht htdate
    have := (effectiveKey_le_iff s t).mp (hmax t ht (le_of_eq htdate))
    omega
  · intro hmax
    refine ⟨hs, le_refl _, fun t ht htdate => (effectiveKey_le_iff s t).mpr ?_⟩
    rcases lt_or_eq_of_le htdate with hlt | heq
    · exact Or.inl hlt
    · exact Or.inr ⟨heq, hmax t ht heq⟩

/-- Without an append a promotion takes effect iff the snapshot that is there is the newest. -/
theorem Kept.takes_effect_of_existing (h : Kept log d) {existing : UniverseSnapshot}
    (hmem : existing ∈ log) (hsha : existing.contentSha256 = candidate.contentSha256) :
    TakesEffect candidate d d ↔ NewestIfPromoted candidate d := by
  have hread := (h.published.read_iff existing.universeVersion existing).mpr ⟨hmem, rfl⟩
  have hunique (s : UniverseSnapshot) (hs : s ∈ log)
      (hssha : s.contentSha256 = candidate.contentSha256) : s = existing :=
    List.inj_on_of_nodup_map h.distinct hs hmem (hssha.trans hsha.symm)
  have hdate (hcontent : existing.content = candidate.content) :
      existing.tradingDate = candidate.tradingDate := by
    rw [← UniverseSnapshot.content_tradingDate, hcontent, UniverseSnapshot.content_tradingDate]
  constructor
  · intro heffect v s hs hssha
    obtain ⟨hslog, rfl⟩ := (h.published.read_iff v s).mp hs
    obtain rfl := hunique s hslog hssha
    obtain ⟨t, hactive, hcontent⟩ := heffect.active Directory.entryOrder
    have htlog := ((h.published.activeFor_iff _ _ t).mp hactive).1
    obtain rfl := hunique t htlog (by rw [t.contentSha256_eq, hcontent, candidate.contentSha256_eq])
    refine ⟨hcontent, fun w other hother hotherdate => ?_⟩
    obtain ⟨hotherlog, rfl⟩ := (h.published.read_iff w other).mp hother
    rw [← hdate hcontent] at hactive hotherdate
    exact (h.published.active_on_date_iff _ hmem).mp hactive other hotherlog hotherdate
  · intro hnewest
    obtain ⟨hcontent, hmax⟩ := hnewest _ existing hread hsha
    refine ⟨fun glob => ⟨existing, ?_, hcontent⟩, ?_, ?_⟩
    · rw [← hdate hcontent, h.published.active_on_date_iff glob hmem]
      intro t ht htdate
      exact hmax _ t ((h.published.read_iff _ t).mpr ⟨ht, rfl⟩) (htdate.trans (hdate hcontent))
    · intro glob tradingDate s hs
      exact ((h.published.activeFor_iff glob tradingDate s).mp hs).2.1
    · intro glob glob' tradingDate hchanged
      exact absurd (activeFor_congr h.published h.published glob glob' fun _ _ => Iff.rfl) hchanged

/-- An appended promotion takes effect. -/
theorem Published.takes_effect_of_append (h : Published log d) {d' : VersionsDir}
    {promoted : UniverseSnapshot} (hcontent : promoted.content = candidate.content)
    (hversion : promoted.universeVersion = log.length + 1) (h' : Published (log ++ [promoted]) d') :
    TakesEffect candidate d d' := by
  have hdate : promoted.tradingDate = candidate.tradingDate := by
    rw [← UniverseSnapshot.content_tradingDate, hcontent, UniverseSnapshot.content_tradingDate]
  have hmem : promoted ∈ log ++ [promoted] := by simp
  refine ⟨fun glob => ⟨promoted, ?_, hcontent⟩, ?_, ?_⟩
  · rw [← hdate, h'.active_on_date_iff glob hmem]
    intro t ht _
    have := (h'.version_mem ht).2
    rw [List.length_append, List.length_singleton] at this
    omega
  · intro glob tradingDate s hs
    exact ((h'.activeFor_iff glob tradingDate s).mp hs).2.1
  · intro glob glob' tradingDate hchanged
    by_contra hbefore
    refine hchanged (activeFor_congr h h' glob glob' fun s hs => ?_)
    rw [List.mem_append, List.mem_singleton]
    constructor
    · exact Or.inl
    · rintro (hslog | rfl)
      · exact hslog
      · omega

end Effect

/-- **When a promotion takes effect.**  A promotion returns a snapshot that has the hash of its
candidate.  Its content is then active on its date iff a file that had the hash before has the content
and the greatest version of the date; dates before it are never touched. -/
theorem promotion_takes_effect_iff (history : List Promotion) (p : Promotion)
    (hp : p.result.isPromotable = true) :
    (∃ s, (p.run (promoteAll history)).2 = .ok s ∧
      s.contentSha256 = p.candidate.contentSha256) ∧
    (TakesEffect p.candidate (promoteAll history) (p.run (promoteAll history)).1 ↔
      NewestIfPromoted p.candidate (promoteAll history)) := by
  obtain ⟨log, h⟩ := kept_promoteAll history
  unfold Promotion.run
  rcases promote_spec h.published h.quiet p.search p.glob hp p.effectiveAt with
    ⟨existing, hmem, hsha, hrun⟩ | ⟨hnew, d', promoted, hpromoted, hrun, hd', _⟩
  · rw [hrun]
    exact ⟨⟨existing, rfl, hsha⟩, h.takes_effect_of_existing hmem hsha⟩
  · rw [hrun]
    have hcontent : promoted.content = p.candidate.content := by
      rw [hpromoted, UniverseSnapshot.promotedAs_content]
      rfl
    have hversion : promoted.universeVersion = log.length + 1 := by
      rw [hpromoted, UniverseSnapshot.promotedAs_universeVersion]
    refine ⟨⟨promoted, rfl, ?_⟩, ?_⟩
    · rw [promoted.contentSha256_eq, hcontent, ← p.candidate.contentSha256_eq]
    refine iff_of_true (h.published.takes_effect_of_append hcontent hversion hd') ?_
    intro v existing hread hsha
    exact absurd hsha (hnew existing ((h.published.read_iff v existing).mp hread).1)

theorem nse_length : 1 ≤ "nse".length ∧ "nse".length ≤ 32 := by decide

/-- A short text for the fields of a sample. -/
def nse (n : ℕ) : Text (n + 32) :=
  ⟨"nse", nse_length.1, le_trans nse_length.2 (Nat.le_add_left 32 n)⟩

/-- A universe of RELIANCE alone, in a sector or not. -/
def relianceUniverse (tradingDate : Int) (sector : Option (Text 64)) : UniverseSnapshot where
  universeVersion := 0
  tradingDate := tradingDate
  effectiveAt := 0
  state := .candidate
  instruments := [⟨reliance, nse 32, nse 0, sector⟩]
  sourceProvenance := ⟨nse 96, nse 32, tradingDate, nse 96, nse 32, nse 96, nse 32⟩
  contentSha256 := contentHash (logicalContent tradingDate [⟨reliance, nse 32, nse 0, sector⟩]
    ⟨nse 96, nse 32, tradingDate, nse 96, nse 32, nse 96, nse 32⟩)
  increasing := List.pairwise_singleton _ _
  hash := rfl

def unclassified : UniverseSnapshot := relianceUniverse 739000 none

def classified : UniverseSnapshot := relianceUniverse 739000 (some (nse 32))

/-- Promoting the classified universe again, after the unclassified one and itself. -/
theorem promotion_takes_effect_sample :
    let history : List Promotion := [{ result := { candidate := unclassified }, effectiveAt := 0 },
      { result := { candidate := classified }, effectiveAt := 1 }]
    let p : Promotion := { result := { candidate := classified }, effectiveAt := 2 }
    TakesEffect classified (promoteAll history) (p.run (promoteAll history)).1 := by
  intro history p
  refine (promotion_takes_effect_iff history p rfl).2.mpr ?_
  -- one evaluation of the two promotions for the three facts
  have hhistory : (promoteAll history).names = [.version 1, .version 2] ∧
      ((promoteAll history).read (.version 1)).map (·.contentSha256) ≠
        some p.candidate.contentSha256 ∧
      ((promoteAll history).read (.version 2)).map (·.content) = some p.candidate.content := by
    decide +kernel
  obtain ⟨hnames, hother, hcontent⟩ := hhistory
  have hversion {v : ℕ} {s : UniverseSnapshot}
      (hread : (promoteAll history).read (.version v) = some s) : v = 1 ∨ v = 2 := by
    have hname := (Directory.mem_names_iff (promoteAll history) (.version v)).mpr (by rw [hread]; rfl)
    simpa [hnames] using hname
  intro v existing hread hsha
  obtain rfl | rfl := hversion hread
  · exact absurd (by rw [hread, Option.map_some, hsha]) hother
  · rw [hread, Option.map_some, Option.some.injEq] at hcontent
    refine ⟨hcontent, fun w s hs _ => ?_⟩
    have := hversion hs
    omega

/-- The unclassified universe is promoted, then the classified one, then the unclassified one again:
    the first version is returned and the second stays active. -/
theorem returning_universe_is_not_active :
    ¬ ∀ (history : List Promotion) (p : Promotion), p.result.isPromotable = true →
      TakesEffect p.candidate (promoteAll history) (p.run (promoteAll history)).1 := by
  intro h
  have heffect := h [{ result := { candidate := unclassified }, effectiveAt := 0 },
    { result := { candidate := classified }, effectiveAt := 1 }]
    { result := { candidate := unclassified }, effectiveAt := 2 } rfl
  obtain ⟨s, hactive, hcontent⟩ := heffect.active Directory.entryOrder
  have hclassified := congrArg (Option.map (·.content.instruments.map (·.sector))) hactive
  rw [Option.map_some, hcontent] at hclassified
  revert hclassified
  decide +kernel

end ApexScan.Universe
