import ApexScan.Deploy.References
import ApexScan.Lib.Dict
import ApexScan.Lib.Raising
import ApexScan.Lib.Sha256
import ApexScan.Lib.Sorting
import Mathlib.Data.String.Basic

/-!
# Deployment bundles (`deploy/bundle.py`)

A bundle is a compressed archive of files and of a manifest, which names the commit that the files come
from and the digest of each.

* `Libraries` — `tarfile` over `gzip`, and `json`, without any assumption about them.
* `safeName` — the pattern of the file names; `$` also matches before a newline at the end.
* `buildManifest`, `createBundle` — the writer.
* `safeMembers`, `verifyBundle` — the reader, with every exception that leaves it.
* `Extracted`, `safeMembers_eq_ok` — what the reader takes from an archive.
* `Verifies`, `verifyBundle_eq_ok` — the bundles that verify, and as what.
* `VerifyRaises`, `verifyBundle_eq_error` — the exceptions other than `BundleError`.
-/

set_option autoImplicit false

namespace ApexScan.Deploy

open Lib
open Ipc (Json)

/-! ## Archives -/

abbrev Bytes := List UInt8

/-- What `tarfile` and `gzip` raise. -/
inductive ArchiveError where
  | tarError
  | osError
  | eofError
  | zlibError
  deriving DecidableEq, Repr

/-- The exceptions of a verification. -/
inductive BundleFailure where
  | bundleError
  | archive (e : ArchiveError)
  | unicodeDecodeError
  | valueError
  | attributeError
  deriving DecidableEq, Repr

/-- A member of an archive; `extract` is `extractfile(member)`, which may be `None`, and its `read`. -/
structure TarMember where
  name : String
  regular : Bool
  extract : Except ArchiveError (Option Bytes)

/-- The libraries that the bundle goes through. -/
structure Libraries where
  /-- `tarfile.open(mode="r:gz")` and `getmembers`. -/
  getmembers : Bytes → Except ArchiveError (List TarMember)
  /-- `tarfile.open(mode="w:gz")` with an `addfile` for each name and content. -/
  addfiles : List (String × Bytes) → Bytes
  /-- `json.loads`; `none` is a `ValueError`. -/
  loads : String → Option Json
  /-- `json.dumps(value, sort_keys=True)`. -/
  dumps : Json → String

/-- `text.encode("utf-8")`. -/
def encode (text : String) : Bytes := text.toByteArray.data.toList

/-- `data.decode("utf-8")`; `none` is a `UnicodeDecodeError`. -/
def decode (data : Bytes) : Option String := String.fromUTF8? ⟨data.toArray⟩

/-- `_sha256`. -/
def sha256 (data : Bytes) : String := Sha256.hexdigest (data.map UInt8.toNat)

theorem decode_encode (text : String) : decode (encode text) = some text := by
  unfold decode encode
  rw [Array.toArray_toList]
  simp only [String.fromUTF8?, dif_pos text.isValidUTF8]
  rfl

/-! ## Names -/

/-- `BUNDLE_SCHEMA`. -/
def bundleSchema : String := "apexscan-deploy-bundle/1"

/-- `MANIFEST_NAME`. -/
def manifestName : String := "manifest.json"

/-- `PRODUCTION_COMPOSE_FILE`. -/
def productionComposeFile : String := "docker-compose.production.yml"

/-- `[A-Za-z0-9._-]`. -/
def nameCharacter (c : Char) : Bool :=
  lowerAlphanumeric c || ('A' ≤ c && c ≤ 'Z') || ['.', '_', '-'].contains c

/-- `_SAFE_NAME`. -/
def safeName (name : String) : Bool :=
  !(name.toList.takeWhile nameCharacter).isEmpty && atEnd (name.toList.dropWhile nameCharacter)

/-- The reader's check of a name. -/
def unsafeMemberName (name : String) : Bool :=
  "/".toList.isPrefixOf name.toList || (name.toList.splitOn '/').contains "..".toList || !safeName name

/-! ## The writer -/

/-- `Mapping[str, bytes]`. -/
structure FileMap where
  items : Dict String Bytes
  distinct : (items.map (·.1)).Nodup

/-- The digest of each file, by name. -/
def fileDigests (files : FileMap) : Dict String Json :=
  (sortBy (·.1) files.items).map fun file => (file.1, .str (sha256 file.2))

/-- The manifest of files from a commit. -/
def manifestFor (sourceSha : String) (files : FileMap) : Json :=
  .obj [("schema", .str bundleSchema), ("source_sha", .str sourceSha),
    ("files", .obj (fileDigests files))]

/-- `build_manifest`. -/
def buildManifest (sourceSha : String) (files : FileMap) : Except BundleFailure Json :=
  if !fullSha sourceSha then .error .bundleError else .ok (manifestFor sourceSha files)

/-- What a bundle carries: the files and the manifest, sorted by name. -/
def payload (P : Libraries) (files : FileMap) (manifest : Json) : Dict String Bytes :=
  sortBy (·.1) (files.items.set manifestName (encode (P.dumps manifest)))

/-- `create_bundle`. -/
def createBundle (P : Libraries) (sourceSha : String) (files : FileMap) : Except BundleFailure Bytes :=
  if files.items.any fun file => file.1 = manifestName || !safeName file.1 then .error .bundleError
  else do
    let manifest ← buildManifest sourceSha files
    return P.addfiles (payload P files manifest)

/-! ## The reader -/

/-- One round of the loop of `_safe_members`. -/
def safeMember (out : Dict String Bytes) (member : TarMember) :
    Except BundleFailure (Dict String Bytes) :=
  if !member.regular then .error .bundleError
  else if unsafeMemberName member.name then .error .bundleError
  else if (out.get member.name).isSome then .error .bundleError
  else
    match member.extract with
    | .error e => .error (.archive e)
    | .ok none => .error .bundleError
    | .ok (some data) => .ok (out.set member.name data)

/-- `_safe_members`. -/
def safeMembers (tar : List TarMember) : Except BundleFailure (Dict String Bytes) :=
  tar.foldlM safeMember []

/-- `value == text`, for the value of a key that may be absent. -/
def isText (value : Option Json) (text : String) : Bool :=
  match value with
  | some (.str s) => s = text
  | _ => false

/-- `set(xs) == set(ys)`. -/
def sameKeys (xs ys : List String) : Bool := xs.all ys.contains && ys.all xs.contains

/-- `json.loads(members[MANIFEST_NAME].decode("utf-8"))`. -/
def readManifest (P : Libraries) (members : Dict String Bytes) : Except BundleFailure Json :=
  match members.get manifestName with
  | none => .error .bundleError
  | some data =>
    match decode data with
    | none => .error .unicodeDecodeError
    | some text =>
      match P.loads text with
      | none => .error .valueError
      | some manifest => .ok manifest

/-- The checks of a manifest against the members and the expected commit. -/
def checkManifest (members : Dict String Bytes) (manifest : Json) (expectedSha : String) :
    Except BundleFailure (Dict String Bytes) :=
  match manifest.members? with
  -- nothing but an object has a `get`
  | none => .error .attributeError
  | some _ =>
    if !isText (manifest.get? "schema") bundleSchema then .error .bundleError
    else if !isText (manifest.get? "source_sha") expectedSha || !fullSha expectedSha then
      .error .bundleError
    else
      match manifest.get? "files" with
      | some (.obj declared) =>
        let files := members.restrict (· ≠ manifestName)
        if !sameKeys (files.map (·.1)) (declared.map (·.1)) then .error .bundleError
        else if files.any fun file => !isText (Dict.get declared file.1) (sha256 file.2) then
          .error .bundleError
        else .ok files
      | _ => .error .bundleError

/-- `verify_bundle`. -/
def verifyBundle (P : Libraries) (archive : Bytes) (expectedSha : String) :
    Except BundleFailure (Dict String Bytes) := do
  let tar ← (P.getmembers archive).mapError .archive
  let members ← safeMembers tar
  let manifest ← readManifest P members
  checkManifest members manifest expectedSha

/-! ## What is extracted -/

/-- A member with a safe name, as the file of its name and content. -/
structure Takes (member : TarMember) (file : String × Bytes) : Prop where
  regular : member.regular = true
  safe : unsafeMemberName member.name = false
  name : member.name = file.1
  extract : member.extract = .ok (some file.2)

/-- Every member is taken, and no two have one name. -/
structure Extracted (tar : List TarMember) (out : Dict String Bytes) : Prop where
  takes : List.Forall₂ Takes tar out
  distinct : (out.map (·.1)).Nodup

/-- After members that are taken, the member passes the checks before it is read. -/
structure Admitted (out : Dict String Bytes) (member : TarMember) : Prop where
  regular : member.regular = true
  safe : unsafeMemberName member.name = false
  fresh : out.get member.name = none

/-- The member is to be read, and cannot be. -/
structure Unreadable (out : Dict String Bytes) (member : TarMember) (e : ArchiveError) : Prop extends
    Admitted out member where
  extract : member.extract = .error e

variable {out out' : Dict String Bytes} {member : TarMember} {tar : List TarMember}

theorem safeMember_of_admitted (h : Admitted out member) : safeMember out member =
    match member.extract with
    | .error e => .error (.archive e)
    | .ok none => .error .bundleError
    | .ok (some data) => .ok (out.set member.name data) := by
  unfold safeMember
  simp only [h.regular, h.safe, h.fresh, Bool.not_true, Bool.false_eq_true, if_false,
    Option.isSome_none]

theorem safeMember_of_not_admitted (h : ¬ Admitted out member) :
    safeMember out member = .error .bundleError := by
  unfold safeMember
  split
  · rfl
  · rename_i hregular
    split
    · rfl
    · rename_i hsafe
      split
      · rfl
      · rename_i hfresh
        exact absurd ⟨by simpa using hregular, by simpa using hsafe, by simpa using hfresh⟩ h

theorem safeMember_eq_ok : safeMember out member = .ok out' ↔
    ∃ file, Takes member file ∧ out.get file.1 = none ∧ out' = out ++ [file] := by
  constructor
  · intro h
    by_cases hadmitted : Admitted out member
    · rw [safeMember_of_admitted hadmitted] at h
      split at h
      · cases h
      · cases h
      · rename_i data hdata
        cases h
        exact ⟨(member.name, data), ⟨hadmitted.regular, hadmitted.safe, rfl, hdata⟩, hadmitted.fresh,
          Dict.set_of_get_eq_none hadmitted.fresh data⟩
    · rw [safeMember_of_not_admitted hadmitted] at h
      cases h
  · rintro ⟨⟨name, data⟩, ⟨hregular, hsafe, rfl, hdata⟩, hfresh, rfl⟩
    rw [safeMember_of_admitted ⟨hregular, hsafe, hfresh⟩, hdata, ← Dict.set_of_get_eq_none hfresh]

/-- Only the reading of a member raises anything else than `BundleError`. -/
theorem safeMember_eq_error {failure : BundleFailure} (hfailure : failure ≠ .bundleError) :
    safeMember out member = .error failure ↔ ∃ e, failure = .archive e ∧ Unreadable out member e := by
  constructor
  · intro h
    by_cases hadmitted : Admitted out member
    · rw [safeMember_of_admitted hadmitted] at h
      split at h
      · rename_i e he
        cases h
        exact ⟨e, rfl, ⟨hadmitted, he⟩⟩
      · cases h
        exact absurd rfl hfailure
      · cases h
    · rw [safeMember_of_not_admitted hadmitted] at h
      cases h
      exact absurd rfl hfailure
  · rintro ⟨e, rfl, ⟨hadmitted, he⟩⟩
    rw [safeMember_of_admitted hadmitted, he]

theorem foldlM_safeMember_eq_ok (hout : (out.map (·.1)).Nodup) :
    tar.foldlM safeMember out = .ok out' ↔
      ∃ rest, List.Forall₂ Takes tar rest ∧ out' = out ++ rest ∧ (out'.map (·.1)).Nodup := by
  induction tar generalizing out with
  | nil =>
    constructor
    · intro h
      cases h
      exact ⟨[], .nil, by simp, hout⟩
    · rintro ⟨rest, hrest, rfl, -⟩
      cases hrest
      rw [List.append_nil]
      rfl
  | cons member tar ih =>
    rw [List.foldlM_cons, bind_eq_ok]
    constructor
    · rintro ⟨out₁, hmember, htar⟩
      obtain ⟨file, htakes, hfresh, rfl⟩ := safeMember_eq_ok.mp hmember
      have hout₁ := Dict.nodup_keys_set hout file.1 file.2
      rw [Dict.set_of_get_eq_none hfresh] at hout₁
      obtain ⟨rest, hrest, rfl, hdistinct⟩ := (ih hout₁).mp htar
      exact ⟨file :: rest, .cons htakes hrest, by simp, hdistinct⟩
    · rintro ⟨rest, hrest, rfl, hdistinct⟩
      cases hrest with
      | @cons _ file _ rest htakes hrest =>
        have hsplit : out ++ file :: rest = (out ++ [file]) ++ rest := by simp
        have hout₁ : ((out ++ [file]).map (·.1)).Nodup := by
          rw [hsplit, List.map_append] at hdistinct
          exact hdistinct.of_append_left
        have hfresh : out.get file.1 = none := by
          rw [List.map_append, List.map_singleton] at hout₁
          have hnot := (List.nodup_append.mp hout₁).2.2
          rw [← Option.not_isSome_iff_eq_none, ← Dict.mem_keys_iff]
          exact fun hmem => hnot _ hmem _ (List.mem_singleton_self _) rfl
        exact ⟨out ++ [file], safeMember_eq_ok.mpr ⟨file, htakes, hfresh, rfl⟩,
          (ih hout₁).mpr ⟨rest, hrest, hsplit, hdistinct⟩⟩

/-- **What is extracted**: every member is taken. -/
theorem safeMembers_eq_ok : safeMembers tar = .ok out ↔ Extracted tar out := by
  have hempty : (([] : Dict String Bytes).map (·.1)).Nodup := List.nodup_nil
  unfold safeMembers
  rw [foldlM_safeMember_eq_ok hempty]
  constructor
  · rintro ⟨rest, hrest, rfl, hdistinct⟩
    exact ⟨hrest, hdistinct⟩
  · rintro ⟨htakes, hdistinct⟩
    exact ⟨out, htakes, rfl, hdistinct⟩

/-- Every name that is extracted is one that the reader takes. -/
theorem Extracted.safe (h : Extracted tar out) : ∀ file ∈ out, unsafeMemberName file.1 = false := by
  obtain ⟨htakes, -⟩ := h
  induction htakes with
  | nil => simp
  | cons hfile _ ih =>
    refine List.forall_mem_cons.mpr ⟨?_, ih⟩
    rw [← hfile.name]
    exact hfile.safe

/-- An exception that leaves the extraction comes from the reading of a member. -/
theorem safeMembers_eq_error {failure : BundleFailure} (hfailure : failure ≠ .bundleError) :
    safeMembers tar = .error failure ↔ ∃ pre member post out e, tar = pre ++ member :: post ∧
      Extracted pre out ∧ Unreadable out member e ∧ failure = .archive e := by
  unfold safeMembers
  rw [foldlM_eq_error]
  constructor
  · rintro ⟨pre, member, post, out, rfl, hpre, hmember⟩
    obtain ⟨e, rfl, hunreadable⟩ := (safeMember_eq_error hfailure).mp hmember
    exact ⟨pre, member, post, out, e, rfl, safeMembers_eq_ok.mp hpre, hunreadable, rfl⟩
  · rintro ⟨pre, member, post, out, e, rfl, hpre, hunreadable, rfl⟩
    exact ⟨pre, member, post, out, rfl, safeMembers_eq_ok.mpr hpre,
      (safeMember_eq_error hfailure).mpr ⟨e, rfl, hunreadable⟩⟩

/-! ## What verifies -/

theorem isText_iff {value : Option Json} {text : String} :
    isText value text = true ↔ value = some (.str text) := by
  unfold isText
  split
  · simp
  · rename_i hother
    refine iff_of_false (by simp) ?_
    rintro rfl
    exact hother text rfl

theorem sameKeys_iff {xs ys : List String} :
    sameKeys xs ys = true ↔ ∀ name, name ∈ xs ↔ name ∈ ys := by
  unfold sameKeys
  rw [Bool.and_eq_true, List.all_eq_true, List.all_eq_true]
  simp only [List.contains_iff_mem]
  exact ⟨fun h name => ⟨h.1 name, h.2 name⟩, fun h => ⟨fun x => (h x).mp, fun y => (h y).mpr⟩⟩

/-- The manifest of the members: its value. -/
def ManifestOf (P : Libraries) (members : Dict String Bytes) (manifest : Json) : Prop :=
  ∃ data text, members.get manifestName = some data ∧ decode data = some text ∧
    P.loads text = some manifest

/-- A manifest that is bound to a commit and declares files. -/
structure Bound (manifest : Json) (sha : String) (declared : Dict String Json) : Prop where
  schema : manifest.get? "schema" = some (.str bundleSchema)
  source : manifest.get? "source_sha" = some (.str sha)
  full : fullSha sha = true
  files : manifest.get? "files" = some (.obj declared)

/-- The files of an archive are those that its manifest declares for the commit, each with its
    digest. -/
def Verifies (P : Libraries) (archive : Bytes) (sha : String) (files : Dict String Bytes) : Prop :=
  ∃ tar members manifest declared, P.getmembers archive = .ok tar ∧ Extracted tar members ∧
    ManifestOf P members manifest ∧ Bound manifest sha declared ∧
    files = members.restrict (· ≠ manifestName) ∧
    (∀ name, name ∈ files.map (·.1) ↔ name ∈ declared.map (·.1)) ∧
    ∀ file ∈ files, Dict.get declared file.1 = some (.str (sha256 file.2))

variable {P : Libraries} {members files : Dict String Bytes} {manifest : Json} {sha : String}

theorem readManifest_eq_ok : readManifest P members = .ok manifest ↔ ManifestOf P members manifest := by
  unfold readManifest ManifestOf
  constructor
  · intro h
    split at h
    · cases h
    · rename_i data hdata
      split at h
      · cases h
      · rename_i text htext
        split at h
        · cases h
        · rename_i value hvalue
          cases h
          exact ⟨data, text, hdata, htext, hvalue⟩
  · rintro ⟨data, text, hdata, htext, hvalue⟩
    simp only [hdata, htext, hvalue]

theorem checkManifest_eq_ok : checkManifest members manifest sha = .ok files ↔
    ∃ declared, Bound manifest sha declared ∧ files = members.restrict (· ≠ manifestName) ∧
      (∀ name, name ∈ files.map (·.1) ↔ name ∈ declared.map (·.1)) ∧
      ∀ file ∈ files, Dict.get declared file.1 = some (.str (sha256 file.2)) := by
  unfold checkManifest
  constructor
  · intro h
    split at h
    · cases h
    · split at h
      · cases h
      · rename_i hschema
        split at h
        · cases h
        · rename_i hsource
          split at h
          · rename_i declared hfiles
            simp only at h
            split at h
            · cases h
            · rename_i hkeys
              split at h
              · cases h
              · rename_i hdigests
                cases h
                rw [Bool.not_eq_true', Bool.not_eq_false] at hschema hkeys
                rw [Bool.or_eq_true, not_or, Bool.not_eq_true', Bool.not_eq_true', Bool.not_eq_false,
                  Bool.not_eq_false] at hsource
                refine ⟨declared, ⟨isText_iff.mp hschema, isText_iff.mp hsource.1, hsource.2, hfiles⟩,
                  rfl, sameKeys_iff.mp hkeys, fun file hfile => isText_iff.mp ?_⟩
                by_contra hdigest
                exact hdigests (List.any_eq_true.mpr ⟨file, hfile, by simpa using hdigest⟩)
          · cases h
  · rintro ⟨declared, ⟨hschema, hsource, hfull, hfiles⟩, rfl, hkeys, hdigests⟩
    have hobject : manifest.members?.isSome = true := by
      unfold Json.get? at hfiles
      cases hmembers : manifest.members? with
      | none =>
        rw [hmembers] at hfiles
        cases hfiles
      | some _ => rfl
    obtain ⟨_, hmembers⟩ := Option.isSome_iff_exists.mp hobject
    have hany : ((members.restrict (· ≠ manifestName)).any fun file =>
        !isText (Dict.get declared file.1) (sha256 file.2)) = false := by
      rw [← Bool.not_eq_true, List.any_eq_true]
      rintro ⟨file, hfile, hother⟩
      rw [isText_iff.mpr (hdigests file hfile)] at hother
      cases hother
    simp only [hmembers, isText_iff.mpr hschema, isText_iff.mpr hsource, hfull, hfiles,
      sameKeys_iff.mpr hkeys, hany, Bool.not_true, Bool.or_false, Bool.false_eq_true, if_false]

/-- **The bundles that verify**, and as which files. -/
theorem verifyBundle_eq_ok {archive : Bytes} :
    verifyBundle P archive sha = .ok files ↔ Verifies P archive sha files := by
  unfold verifyBundle Verifies
  simp only [bind_eq_ok, mapError_eq_ok, safeMembers_eq_ok, readManifest_eq_ok, checkManifest_eq_ok]
  constructor
  · rintro ⟨tar, htar, members, hmembers, manifest, hmanifest, declared, hbound, hfiles⟩
    exact ⟨tar, members, manifest, declared, htar, hmembers, hmanifest, hbound, hfiles⟩
  · rintro ⟨tar, members, manifest, declared, htar, hmembers, hmanifest, hbound, hfiles⟩
    exact ⟨tar, htar, members, hmembers, manifest, hmanifest, declared, hbound, hfiles⟩

/-- Bundles that verify have distinct names. -/
theorem Verifies.distinct {archive : Bytes} (h : Verifies P archive sha files) :
    (files.map (·.1)).Nodup := by
  obtain ⟨tar, members, manifest, declared, -, ⟨-, hdistinct⟩, -, -, rfl, -, -⟩ := h
  exact Dict.nodup_keys_restrict hdistinct _

/-- The names of a bundle that verifies are accepted by the pattern. -/
theorem Verifies.safeName {archive : Bytes} (h : Verifies P archive sha files) :
    ∀ file ∈ files, safeName file.1 = true := by
  obtain ⟨tar, members, manifest, declared, -, hextracted, -, -, rfl, -, -⟩ := h
  intro file hfile
  have hsafe := hextracted.safe file (List.mem_of_mem_filter hfile)
  unfold unsafeMemberName at hsafe
  simpa using (Bool.or_eq_false_iff.mp hsafe).2

/-! ## What else is raised -/

/-- The exceptions other than `BundleError`: of the archive when it is opened or a member is read, of
    the bytes of the manifest, of its text, and of a value that is no object. -/
inductive VerifyRaises (P : Libraries) (archive : Bytes) : BundleFailure → Prop where
  | opening {e : ArchiveError} : P.getmembers archive = .error e → VerifyRaises P archive (.archive e)
  | reading {pre post : List TarMember} {member : TarMember} {out : Dict String Bytes}
      {e : ArchiveError} :
      P.getmembers archive = .ok (pre ++ member :: post) → Extracted pre out → Unreadable out member e →
      VerifyRaises P archive (.archive e)
  | decoding {tar : List TarMember} {members : Dict String Bytes} {data : Bytes} :
      P.getmembers archive = .ok tar → Extracted tar members → members.get manifestName = some data →
      decode data = none → VerifyRaises P archive .unicodeDecodeError
  | parsing {tar : List TarMember} {members : Dict String Bytes} {data : Bytes} {text : String} :
      P.getmembers archive = .ok tar → Extracted tar members → members.get manifestName = some data →
      decode data = some text → P.loads text = none → VerifyRaises P archive .valueError
  | value {tar : List TarMember} {members : Dict String Bytes} {manifest : Json} :
      P.getmembers archive = .ok tar → Extracted tar members → ManifestOf P members manifest →
      manifest.members? = none → VerifyRaises P archive .attributeError

theorem VerifyRaises.ne_bundleError {archive : Bytes} {failure : BundleFailure}
    (h : VerifyRaises P archive failure) : failure ≠ .bundleError := by
  cases h <;> simp

theorem readManifest_eq_error {failure : BundleFailure} (hfailure : failure ≠ .bundleError) :
    readManifest P members = .error failure ↔ ∃ data, members.get manifestName = some data ∧
      (decode data = none ∧ failure = .unicodeDecodeError ∨
        ∃ text, decode data = some text ∧ P.loads text = none ∧ failure = .valueError) := by
  unfold readManifest
  constructor
  · intro h
    split at h
    · cases h
      exact absurd rfl hfailure
    · rename_i data hdata
      refine ⟨data, hdata, ?_⟩
      split at h
      · rename_i hnone
        cases h
        exact Or.inl ⟨hnone, rfl⟩
      · rename_i text htext
        split at h
        · rename_i hnone
          cases h
          exact Or.inr ⟨text, htext, hnone, rfl⟩
        · cases h
  · rintro ⟨data, hdata, ⟨hnone, rfl⟩ | ⟨text, htext, hnone, rfl⟩⟩
    · simp only [hdata, hnone]
    · simp only [hdata, htext, hnone]

/-- A check fails with a `BundleError`, unless there is no object to check. -/
theorem checkManifest_eq_error {failure : BundleFailure} (hfailure : failure ≠ .bundleError) :
    checkManifest members manifest sha = .error failure ↔
      manifest.members? = none ∧ failure = .attributeError := by
  unfold checkManifest
  constructor
  · intro h
    split at h
    · rename_i hnone
      cases h
      exact ⟨hnone, rfl⟩
    · simp only at h
      repeat' split at h
      all_goals cases h
      all_goals exact absurd rfl hfailure
  · rintro ⟨hnone, rfl⟩
    simp only [hnone]

/-- **The exceptions that leave a verification**, apart from `BundleError`. -/
theorem verifyBundle_eq_error {archive : Bytes} {failure : BundleFailure}
    (hfailure : failure ≠ .bundleError) :
    verifyBundle P archive sha = .error failure ↔ VerifyRaises P archive failure := by
  unfold verifyBundle
  simp only [bind_eq_error, mapError_eq_error, mapError_eq_ok, safeMembers_eq_error hfailure,
    safeMembers_eq_ok, readManifest_eq_error hfailure, readManifest_eq_ok,
    checkManifest_eq_error hfailure]
  constructor
  · rintro (⟨e, he, rfl⟩ | ⟨tar, htar, ⟨pre, member, post, out, e, rfl, hpre, hmember, rfl⟩ |
      ⟨members, hmembers, ⟨data, hdata, ⟨hnone, rfl⟩ | ⟨text, htext, hnone, rfl⟩⟩ |
        ⟨manifest, hmanifest, hnone, rfl⟩⟩⟩)
    · exact .opening he
    · exact .reading htar hpre hmember
    · exact .decoding htar hmembers hdata hnone
    · exact .parsing htar hmembers hdata htext hnone
    · exact .value htar hmembers hmanifest hnone
  · intro h
    cases h with
    | opening he => exact Or.inl ⟨_, he, rfl⟩
    | reading htar hpre hmember =>
      exact Or.inr ⟨_, htar, Or.inl ⟨_, _, _, _, _, rfl, hpre, hmember, rfl⟩⟩
    | decoding htar hmembers hdata hnone =>
      exact Or.inr ⟨_, htar, Or.inr ⟨_, hmembers, Or.inl ⟨_, hdata, Or.inl ⟨hnone, rfl⟩⟩⟩⟩
    | parsing htar hmembers hdata htext hnone =>
      exact Or.inr ⟨_, htar, Or.inr ⟨_, hmembers, Or.inl ⟨_, hdata, Or.inr ⟨_, htext, hnone, rfl⟩⟩⟩⟩
    | value htar hmembers hmanifest hnone =>
      exact Or.inr ⟨_, htar, Or.inr ⟨_, hmembers, Or.inr ⟨_, hmanifest, hnone, rfl⟩⟩⟩

/-! ## What the patterns accept -/

/-- The text has no characters but those listed. -/
def OnlyListed (listed : Char → Bool) (text : String) : Prop := ∀ c ∈ text.toList, listed c = true

instance (listed : Char → Bool) (text : String) : Decidable (OnlyListed listed text) :=
  inferInstanceAs (Decidable (∀ c ∈ text.toList, listed c = true))

def EndsInNewline (text : String) : Prop := text.toList.getLast? = some '\n'

instance (text : String) : Decidable (EndsInNewline text) :=
  inferInstanceAs (Decidable (text.toList.getLast? = some '\n'))

theorem atEnd_iff {cs : List Char} : atEnd cs = true ↔ cs = [] ∨ cs = ['\n'] := by
  simp [atEnd]

/-- A text of listed characters up to its end, as `$` has it. -/
theorem onlyListed_iff_of_split {listed : Char → Bool} {text : String} {front rest : List Char}
    (htext : text.toList = front ++ rest) (hfront : ∀ c ∈ front, listed c = true)
    (hrest : atEnd rest = true) (hnewline : listed '\n' = false) :
    OnlyListed listed text ↔ ¬ EndsInNewline text := by
  unfold OnlyListed EndsInNewline
  rw [htext]
  rcases atEnd_iff.mp hrest with rfl | rfl
  · rw [List.append_nil]
    refine iff_of_true hfront ?_
    intro hlast
    rw [hfront _ (List.mem_of_getLast? hlast)] at hnewline
    cases hnewline
  · refine iff_of_false ?_ (by simp)
    intro hall
    rw [hall '\n' (by simp)] at hnewline
    cases hnewline

/-- **A file name** that the pattern accepts has the listed characters only, or ends in a newline. -/
theorem onlyListed_of_safeName {name : String} (h : safeName name = true) :
    OnlyListed nameCharacter name ↔ ¬ EndsInNewline name := by
  unfold safeName at h
  rw [Bool.and_eq_true] at h
  exact onlyListed_iff_of_split (List.takeWhile_append_dropWhile).symm
    (fun c hc => List.mem_takeWhile_imp hc) h.2 (by decide)

/-- **A commit** that the pattern accepts has the listed characters only, or ends in a newline. -/
theorem onlyListed_of_fullSha {sha : String} (h : fullSha sha = true) :
    OnlyListed hexDigit sha ↔ ¬ EndsInNewline sha := by
  unfold fullSha hexDigits at h
  rw [Bool.and_eq_true, Bool.and_eq_true, List.all_eq_true] at h
  exact onlyListed_iff_of_split (List.take_append_drop 40 _).symm h.1.2 h.2 (by decide)

/-- The characters of a name that the pattern accepts. -/
theorem slash_notMem_of_safeName {name : String} (h : safeName name = true) : '/' ∉ name.toList := by
  unfold safeName at h
  rw [Bool.and_eq_true, atEnd_iff] at h
  intro hmem
  rw [← @List.takeWhile_append_dropWhile _ nameCharacter name.toList, List.mem_append] at hmem
  rcases hmem with hmem | hmem
  · exact absurd (List.mem_takeWhile_imp hmem) (by decide)
  · rcases h.2 with hrest | hrest
    · rw [hrest] at hmem
      cases hmem
    · rw [hrest] at hmem
      exact absurd hmem (by decide)

/-- **The reader refuses one name more than the writer.** -/
theorem unsafeMemberName_iff {name : String} (h : safeName name = true) :
    unsafeMemberName name = true ↔ name = ".." := by
  have hslash := slash_notMem_of_safeName h
  have habsolute : "/".toList.isPrefixOf name.toList = false := by
    rw [← Bool.not_eq_true, List.isPrefixOf_iff_prefix]
    rintro ⟨rest, hname⟩
    exact hslash (hname ▸ List.mem_cons_self)
  have hdots : "..".toList = name.toList ↔ name = ".." := by
    rw [String.toList_inj]
    exact eq_comm
  unfold unsafeMemberName
  rw [List.splitOn_eq_singleton hslash, habsolute, h, Bool.not_true, Bool.or_false, Bool.false_or,
    List.contains_iff_mem, List.mem_singleton]
  exact hdots

end ApexScan.Deploy
