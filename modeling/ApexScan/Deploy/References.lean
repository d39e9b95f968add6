import ApexScan.Ipc.Wire
import Mathlib.Data.List.DropRight

/-!
# Image references and rollback targets

Models `deploy/rollback.py`, `deploy/legacy.py` and the text checks of `deploy/transport.py`.

* `strip`, `firstLine` — `str.strip` and `str.splitlines`; `UnicodeData` — the tables of Unicode that
  the texts consult.
* `digestRef`, `fullSha`, `remotePath` — the regular expressions; `$` also matches before a newline
  at the end.
* `resolveReleasePath` — the release directory of a commit.
* `selectRollbackTarget`, `planRollback`, `legacyRollbackVerified`.

`isImmutableRef_of_digestRef`: a digest reference is immutable, so a plan for one is never unavailable.
-/

set_option autoImplicit false

namespace ApexScan.Deploy

/-! ## Texts -/

/-- What `str.lower` and the decimal digits of regular expressions take from Unicode. -/
structure UnicodeData where
  lower : String → String
  digit : Char → Option ℕ
  lower_ascii : ∀ s : String, (∀ c ∈ s.toList, c.toNat < 128) →
    lower s = String.ofList (s.toList.map Char.toLower)

/-- The tables of Unicode, as far as ASCII goes. -/
def asciiData : UnicodeData where
  lower s := String.ofList (s.toList.map Char.toLower)
  digit c := if '0' ≤ c ∧ c ≤ '9' then some (c.toNat - 48) else none
  lower_ascii _ _ := rfl

/-- `str.isspace`, of one character. -/
def isSpace (c : Char) : Bool := Ipc.isWhiteSpace c || (0x1C ≤ c.toNat && c.toNat ≤ 0x1F)

/-- `str.strip`. -/
def strip (s : String) : String :=
  String.ofList ((s.toList.dropWhile isSpace).rdropWhile isSpace)

/-- The characters at which `str.splitlines` breaks. -/
def isLineBreak (c : Char) : Bool :=
  let n := c.toNat
  (10 ≤ n && n ≤ 13) || (0x1C ≤ n && n ≤ 0x1E) || n == 0x85 || n == 0x2028 || n == 0x2029

/-- `s.splitlines()[0]`, or the empty text. -/
def firstLine (s : String) : String := String.ofList (s.toList.takeWhile fun c => !isLineBreak c)

/-- `needle in s`. -/
def contains (s needle : String) : Bool := decide (needle.toList <:+: s.toList)

/-! ## Regular expressions -/

/-- `$`. -/
def atEnd (cs : List Char) : Bool := cs == [] || cs == ['\n']

/-- `[0-9a-f]`. -/
def hexDigit (c : Char) : Bool := ('0' ≤ c && c ≤ '9') || ('a' ≤ c && c ≤ 'f')

/-- `[0-9a-f]{n}$`. -/
def hexDigits (n : ℕ) (cs : List Char) : Bool :=
  (cs.take n).length == n && (cs.take n).all hexDigit && atEnd (cs.drop n)

/-- `[a-z0-9]`. -/
def lowerAlphanumeric (c : Char) : Bool := ('0' ≤ c && c ≤ '9') || ('a' ≤ c && c ≤ 'z')

/-- `([a-z0-9][a-z0-9./_-]*/)?`, all of it. -/
def repositoryPath : List Char → Bool
  | [] => true
  | c :: cs => lowerAlphanumeric c && cs.getLast? == some '/' &&
      cs.all fun c => lowerAlphanumeric c || ['.', '/', '_', '-'].contains c

def imageName : List Char := "apexscan-backend@sha256:".toList

/-- `apexscan-backend@sha256:[0-9a-f]{64}$`. -/
def imageDigest (cs : List Char) : Bool :=
  imageName.isPrefixOf cs && hexDigits 64 (cs.drop imageName.length)

/-- `_DIGEST_REF`: an optional repository path before the digest of the image. -/
def digestRef (s : String) : Bool :=
  (List.range (s.toList.length + 1)).any fun n =>
    repositoryPath (s.toList.take n) && imageDigest (s.toList.drop n)

/-- `_FULL_SHA`. -/
def fullSha (s : String) : Bool := hexDigits 40 s.toList

/-- `_IMAGE_ID`. -/
def imageId (s : String) : Bool :=
  "sha256:".toList.isPrefixOf s.toList && hexDigits 64 (s.toList.drop 7)

/-- The character class of `_REMOTE_PATH`: letters, digits, dot, underscore, slash and hyphen. -/
def pathCharacter (c : Char) : Bool :=
  lowerAlphanumeric c || ('A' ≤ c && c ≤ 'Z') || ['.', '_', '/', '-'].contains c

/-- `_REMOTE_PATH`. -/
def remotePath (s : String) : Bool :=
  match s.toList with
  | '/' :: cs => !(cs.takeWhile pathCharacter).isEmpty && atEnd (cs.dropWhile pathCharacter)
  | _ => false

/-! ## Release paths -/

/-- `resolve_release_path`; `none` is `ReleasePathError`. -/
def resolveReleasePath (deployRoot targetSha : String) : Option String :=
  if !"/".toList.isPrefixOf deployRoot.toList ||
      (deployRoot.toList.splitOn '/').contains "..".toList then none
  else if !remotePath deployRoot then none
  else if !fullSha targetSha then none
  else
    let root := String.ofList (deployRoot.toList.rdropWhile (· == '/'))
    let release := root ++ "/" ++ targetSha
    if (root ++ "/").toList.isPrefixOf release.toList then some release else none

/-! ## Rollback targets -/

/-- What `LegacyRollbackArtifact` checks of the artifact of a legacy image. -/
structure LegacyRollbackArtifact where
  imageDigest : String
  runningImageId : String
  sourceShaEvidence : String
  imageDigest_ref : digestRef imageDigest = true
  runningImageId_id : imageId runningImageId = true
  sourceSha_full : fullSha sourceShaEvidence = true

structure RollbackTarget where
  sourceSha : String
  imageDigest : String
  legacy : Bool
  deriving DecidableEq

/-- `select_rollback_target`. -/
def selectRollbackTarget (runtimeBuildSha runningDigest : Option String)
    (legacy : Option LegacyRollbackArtifact) (versionResponded : Bool) : Option RollbackTarget :=
  if !versionResponded then none
  else
    match runtimeBuildSha with
    | some sha =>
      if !fullSha sha then none
      else
        match runningDigest with
        | some digest => if digestRef digest then some ⟨sha, digest, false⟩ else none
        | none => none
    | none => legacy.map fun artifact => ⟨artifact.sourceShaEvidence, artifact.imageDigest, true⟩

/-- A selected target names a digest. -/
theorem selectRollbackTarget_digestRef {sha digest : Option String}
    {legacy : Option LegacyRollbackArtifact} {responded : Bool} {target : RollbackTarget}
    (h : selectRollbackTarget sha digest legacy responded = some target) :
    digestRef target.imageDigest = true := by
  unfold selectRollbackTarget at h
  split at h
  · cases h
  · split at h
    · split at h
      · cases h
      · split at h
        · split at h
          · rename_i hdigest
            cases h
            exact hdigest
          · cases h
        · cases h
    · obtain ⟨artifact, -, rfl⟩ := Option.map_eq_some_iff.mp h
      exact artifact.imageDigest_ref

/-- A target is a legacy one iff the running backend reports no build. -/
theorem selectRollbackTarget_legacy {sha digest : Option String}
    {legacy : Option LegacyRollbackArtifact} {responded : Bool} {target : RollbackTarget}
    (h : selectRollbackTarget sha digest legacy responded = some target) :
    target.legacy = true ↔ sha = none := by
  unfold selectRollbackTarget at h
  split at h
  · cases h
  · cases sha with
    | some sha =>
      simp only at h
      split at h
      · cases h
      · split at h
        · split at h
          · cases h
            simp
          · cases h
        · cases h
    | none =>
      obtain ⟨artifact, -, rfl⟩ := Option.map_eq_some_iff.mp h
      simp

/-- `legacy_rollback_verified`. -/
def legacyRollbackVerified (runningDigest expectedDigest : String)
    (healthOk startupOk readyOk : Bool) : Bool :=
  runningDigest == expectedDigest && digestRef runningDigest && healthOk && startupOk && readyOk

/-! ## Rollback plans -/

inductive RollbackDecision where
  | ready
  | unavailable
  | requiresOperatorIntervention
  deriving DecidableEq

structure RollbackPlan where
  decision : RollbackDecision
  targetRef : Option String
  reason : String

/-- `_INVALID_REFS`. -/
def invalidRefs : List String := ["", "latest", "unknown", "none", "null"]

variable (u : UnicodeData)

/-- `is_immutable_ref`. -/
def isImmutableRef (ref : Option String) : Bool :=
  match ref with
  | none => false
  | some ref =>
    let normalized := u.lower (strip ref)
    if invalidRefs.contains normalized then false
    else !":latest".toList.isSuffixOf normalized.toList

/-- `plan_rollback`. -/
def planRollback (previousArtifact : Option String)
    (restartRequired dhanRestartSafetyConfirmed : Bool) : RollbackPlan :=
  if !isImmutableRef u previousArtifact then
    ⟨.unavailable, none, "no previous immutable artifact recorded; cannot roll back"⟩
  else if restartRequired && !dhanRestartSafetyConfirmed then
    ⟨.requiresOperatorIntervention, previousArtifact,
      "rollback restarts the backend but Dhan restart safety is unconfirmed"⟩
  else ⟨.ready, previousArtifact, "previous artifact available"⟩

/-! ## Digests are immutable -/

variable {u}

theorem toNat_of_hexDigit {c : Char} (h : hexDigit c = true) :
    (48 ≤ c.toNat ∧ c.toNat ≤ 57) ∨ (97 ≤ c.toNat ∧ c.toNat ≤ 102) := by
  simpa [hexDigit, Char.le_def, UInt32.le_iff_toNat_le] using h

theorem toNat_of_lowerAlphanumeric {c : Char} (h : lowerAlphanumeric c = true) :
    (48 ≤ c.toNat ∧ c.toNat ≤ 57) ∨ (97 ≤ c.toNat ∧ c.toNat ≤ 122) := by
  simpa [lowerAlphanumeric, Char.le_def, UInt32.le_iff_toNat_le] using h

theorem toLower_of_hexDigit {c : Char} (h : hexDigit c = true) : c.toLower = c := by
  have hrange := toNat_of_hexDigit h
  unfold Char.toLower
  refine dif_neg ?_
  rintro ⟨hge, hle⟩
  rw [ge_iff_le, UInt32.le_iff_toNat_le] at hge
  rw [UInt32.le_iff_toNat_le] at hle
  have hA : 'A'.val.toNat = 65 := rfl
  have hZ : 'Z'.val.toNat = 90 := rfl
  have hval : c.val.toNat = c.toNat := rfl
  omega

/-- Digits and letters are no white space. -/
theorem isSpace_of_range {c : Char} (h : 48 ≤ c.toNat) (h' : c.toNat ≤ 122) : isSpace c = false := by
  simp [isSpace, Ipc.isWhiteSpace]
  omega

theorem toNat_of_repositoryPath {path : List Char} (h : repositoryPath path = true) :
    ∀ c ∈ path, c.toNat < 128 := by
  cases path with
  | nil => rintro c ⟨⟩
  | cons d path =>
    rw [repositoryPath, Bool.and_eq_true, Bool.and_eq_true, List.all_eq_true] at h
    intro c hc
    rcases List.mem_cons.mp hc with rfl | hc
    · have hrange := toNat_of_lowerAlphanumeric h.1.1
      omega
    · rcases Bool.or_eq_true_iff.mp (h.2 c hc) with hclass | hother
      · have hrange := toNat_of_lowerAlphanumeric hclass
        omega
      · have hsigns : ∀ c ∈ ['.', '/', '_', '-'], c.toNat < 128 := by simp
        exact hsigns c (List.contains_iff_mem.mp hother)

/-- What a digest reference consists of. -/
theorem digestRef_spec {s : String} (h : digestRef s = true) :
    ∃ path digits rest, s.toList = path ++ imageName ++ digits ++ rest ∧
      repositoryPath path = true ∧ digits.length = 64 ∧ (∀ c ∈ digits, hexDigit c = true) ∧
      (rest = [] ∨ rest = ['\n']) := by
  obtain ⟨n, -, hn⟩ := List.any_eq_true.mp h
  obtain ⟨hpath, hdigest⟩ := Bool.and_eq_true_iff.mp hn
  obtain ⟨hname, hdigits⟩ := Bool.and_eq_true_iff.mp hdigest
  obtain ⟨tail, htail⟩ := List.isPrefixOf_iff_prefix.mp hname
  rw [← htail, List.drop_left] at hdigits
  simp only [hexDigits, Bool.and_eq_true, beq_iff_eq, List.all_eq_true] at hdigits
  obtain ⟨⟨hlength, hhex⟩, hend⟩ := hdigits
  refine ⟨s.toList.take n, tail.take 64, tail.drop 64, ?_, hpath, hlength, hhex, ?_⟩
  · rw [List.append_assoc, List.append_assoc, List.take_append_drop, htail, List.take_append_drop]
  · simpa [atEnd] using hend

theorem strip_digestRef {path digits rest : List Char} {s : String}
    (h : s.toList = path ++ imageName ++ digits ++ rest) (hpath : repositoryPath path = true)
    (hlength : digits.length = 64) (hhex : ∀ c ∈ digits, hexDigit c = true)
    (hrest : rest = [] ∨ rest = ['\n']) :
    strip s = String.ofList (path ++ imageName ++ digits) := by
  have hspace : ∀ c ∈ digits, isSpace c = false := by
    intro c hc
    have hrange := toNat_of_hexDigit (hhex c hc)
    exact isSpace_of_range (by omega) (by omega)
  -- the first character is one of the path or of the name
  have hfirst : s.toList.dropWhile isSpace = s.toList := by
    rw [h]
    cases path with
    | nil => rfl
    | cons c path =>
      rw [repositoryPath, Bool.and_eq_true, Bool.and_eq_true] at hpath
      have hrange := toNat_of_lowerAlphanumeric hpath.1.1
      refine List.dropWhile_cons_of_neg ?_
      rw [isSpace_of_range (by omega) (by omega)]
      exact Bool.false_ne_true
  have hlast : (path ++ imageName ++ digits).rdropWhile isSpace = path ++ imageName ++ digits := by
    have hne : digits ≠ [] := by
      rintro rfl
      cases hlength
    refine List.rdropWhile_eq_self_iff.mpr ?_
    intro hnil
    rw [List.getLast_append_of_ne_nil _ hne, hspace _ (List.getLast_mem hne)]
    exact Bool.false_ne_true
  rw [strip, hfirst, h]
  rcases hrest with rfl | rfl
  · rw [List.append_nil, hlast]
  · rw [List.rdropWhile_concat_pos _ _ _ (by rfl), hlast]

/-- A digest reference names an immutable artifact. -/
theorem isImmutableRef_of_digestRef {s : String} (h : digestRef s = true) :
    isImmutableRef u (some s) = true := by
  obtain ⟨path, digits, rest, hs, hpath, hlength, hhex, hrest⟩ := digestRef_spec h
  have hascii : ∀ c ∈ path ++ imageName ++ digits, c.toNat < 128 := by
    intro c hc
    rcases List.mem_append.mp hc with hc | hc
    · rcases List.mem_append.mp hc with hc | hc
      · exact toNat_of_repositoryPath hpath c hc
      · have hname : imageName.all (fun c => c.toNat < 128) = true := rfl
        exact of_decide_eq_true (List.all_eq_true.mp hname c hc)
    · have hrange := toNat_of_hexDigit (hhex c hc)
      omega
  have hlower : (u.lower (strip s)).toList = (path ++ imageName ++ digits).map Char.toLower := by
    rw [strip_digestRef hs hpath hlength hhex hrest, u.lower_ascii, String.toList_ofList,
      String.toList_ofList]
    rw [String.toList_ofList]
    exact hascii
  have hlong : 64 ≤ (u.lower (strip s)).toList.length := by
    rw [hlower, List.length_map, List.length_append, hlength]
    omega
  have hvalid : u.lower (strip s) ∉ invalidRefs := by
    intro hmem
    have hshort : ∀ ref ∈ invalidRefs, ref.toList.length < 64 := by decide
    exact absurd (hshort _ hmem) (not_lt.mpr hlong)
  -- the last character is a digit of the digest, and no `t`
  have hsuffix : ¬ ":latest".toList <:+ (u.lower (strip s)).toList := by
    rw [hlower, List.map_append]
    rintro ⟨front, heq⟩
    have hlast := congrArg List.getLast? heq
    have hne : digits ≠ [] := by
      rintro rfl
      cases hlength
    obtain ⟨d, hd⟩ := List.getLast?_isSome.mpr hne |> Option.isSome_iff_exists.mp
    have hdigit := hhex d (List.mem_of_getLast? hd)
    rw [List.getLast?_append, List.getLast?_append, List.getLast?_map, hd, Option.map_some,
      toLower_of_hexDigit hdigit, Option.some_or] at hlast
    cases hlast
    cases hdigit
  simp only [isImmutableRef, List.contains_eq_mem, hvalid, decide_false, Bool.false_eq_true, if_false,
    Bool.not_eq_true']
  rw [← Bool.not_eq_true, List.isSuffixOf_iff_suffix]
  exact hsuffix

/-- A rollback to a digest is planned, unless it needs a confirmation that is missing. -/
theorem planRollback_of_digestRef {s : String} (h : digestRef s = true) (confirmed : Bool) :
    (planRollback u (some s) true confirmed).decision =
      if confirmed then .ready else .requiresOperatorIntervention := by
  rw [planRollback, isImmutableRef_of_digestRef h]
  cases confirmed <;> rfl

end ApexScan.Deploy
