import ApexScan.Deploy.Bundle

/-!
# The round trip of a bundle (`deploy/bundle.py`)

The reader refuses a name of two dots, which the pattern accepts and the writer does not look for.

* `Preserves`, `ReadsBack` — what is assumed of the archive and of the JSON of one bundle.
* `not_verifyRaises_of_created` — reading a bundle that was created raises nothing but `BundleError`.
* `verifies_created_iff` — a created bundle verifies for its own commit, unless a name is two dots.
* `RoundTrips` — what is expected of a bundle; `bundle_round_trip_iff` — when it holds.
* `two_dots_created_not_verified` — a file that the writer takes and the reader refuses.
-/

set_option autoImplicit false

namespace ApexScan.Deploy

open Lib
open Ipc (Json)

/-! ## What is assumed -/

/-- A regular member that can be read. -/
def stored (file : String × Bytes) : TarMember where
  name := file.1
  regular := true
  extract := .ok (some file.2)

/-- The archive of these files is read as these files, in order. -/
def Preserves (P : Libraries) (files : Dict String Bytes) : Prop :=
  P.getmembers (P.addfiles files) = .ok (files.map stored)

/-- The members of an object in the order of their names. -/
def sortedMembers : Json → Json
  | .obj members => .obj (sortBy (·.1) members)
  | value => value

/-- The text of this object is read as the object, whose members it has sorted. -/
def ReadsBack (P : Libraries) (manifest : Json) : Prop :=
  P.loads (P.dumps manifest) = some (sortedMembers manifest)

/-! ## What is written -/

variable {P : Libraries} {sourceSha : String} {files : FileMap} {archive : Bytes}

/-- The names and the commit that the writer accepts. -/
structure Writable (sourceSha : String) (files : FileMap) : Prop where
  names : ∀ file ∈ files.items, file.1 ≠ manifestName ∧ safeName file.1 = true
  sha : fullSha sourceSha = true

theorem createBundle_eq_ok : createBundle P sourceSha files = .ok archive ↔
    Writable sourceSha files ∧
      archive = P.addfiles (payload P files (manifestFor sourceSha files)) := by
  unfold createBundle buildManifest
  constructor
  · intro h
    split at h
    · cases h
    · rename_i hnames
      obtain ⟨manifest, hmanifest, harchive⟩ := bind_eq_ok.mp h
      split at hmanifest
      · cases hmanifest
      · rename_i hsha
        cases hmanifest
        cases harchive
        refine ⟨⟨fun file hfile => ?_, by simpa using hsha⟩, rfl⟩
        by_contra hbad
        apply hnames
        rw [List.any_eq_true]
        refine ⟨file, hfile, ?_⟩
        by_cases hname : file.1 = manifestName
        · simp [hname]
        · have hrefused : safeName file.1 ≠ true := fun hsafe => hbad ⟨hname, hsafe⟩
          simp [hrefused]
  · rintro ⟨⟨hnames, hsha⟩, rfl⟩
    have hany : (files.items.any fun file => file.1 = manifestName || !safeName file.1) = false := by
      rw [← Bool.not_eq_true, List.any_eq_true]
      rintro ⟨file, hfile, hbad⟩
      obtain ⟨hname, hsafe⟩ := hnames file hfile
      simp [hname, hsafe] at hbad
    simp only [hany, hsha, Bool.not_true, Bool.false_eq_true, if_false]
    rfl

theorem nodup_payload (files : FileMap) (manifest : Json) :
    ((payload P files manifest).map (·.1)).Nodup := by
  have hkeys := Dict.nodup_keys_set files.distinct manifestName (encode (P.dumps manifest))
  exact (sortBy_perm.map _).nodup_iff.mpr hkeys

section Payload

variable (h : Writable sourceSha files) (manifest : Json)
include h

theorem Writable.get_manifestName : files.items.get manifestName = none := by
  rw [← Option.not_isSome_iff_eq_none, ← Dict.mem_keys_iff]
  intro hmem
  obtain ⟨file, hfile, hname⟩ := List.mem_map.mp hmem
  exact (h.names file hfile).1 hname

/-- The payload is the files and the manifest. -/
theorem Writable.payload_perm :
    (payload P files manifest).Perm (files.items ++ [(manifestName, encode (P.dumps manifest))]) := by
  unfold payload
  rw [Dict.set_of_get_eq_none h.get_manifestName]
  exact sortBy_perm

theorem Writable.payload_get :
    (payload P files manifest).get manifestName = some (encode (P.dumps manifest)) := by
  rw [← Dict.mem_iff_get (nodup_payload files manifest), (h.payload_perm manifest).mem_iff]
  simp

/-- The payload without the manifest is the files. -/
theorem Writable.restrict_perm :
    ((payload P files manifest).restrict (· ≠ manifestName)).Perm files.items := by
  have hfilter := (h.payload_perm (P := P) manifest).filter fun file => decide (file.1 ≠ manifestName)
  rw [List.filter_append, List.filter_eq_self.mpr fun file hfile =>
    decide_eq_true (h.names file hfile).1] at hfilter
  simpa [Dict.restrict] using hfilter

end Payload

/-! ## What is read -/

/-- A stored file is taken as itself. -/
theorem takes_stored_iff {file taken : String × Bytes} :
    Takes (stored file) taken ↔ taken = file ∧ unsafeMemberName file.1 = false := by
  constructor
  · rintro ⟨-, hsafe, hname, hextract⟩
    refine ⟨Prod.ext hname.symm ?_, hsafe⟩
    exact (Option.some.inj (Except.ok.inj hextract)).symm
  · rintro ⟨rfl, hsafe⟩
    exact ⟨rfl, hsafe, rfl, rfl⟩

/-- Stored files of distinct names are extracted as they are, if their names are safe. -/
theorem extracted_stored_iff {members out : Dict String Bytes} (hdistinct : (members.map (·.1)).Nodup) :
    Extracted (members.map stored) out ↔
      out = members ∧ ∀ file ∈ members, unsafeMemberName file.1 = false := by
  constructor
  · rintro ⟨htakes, -⟩
    rw [List.forall₂_map_left_iff] at htakes
    have hsame : List.Forall₂ (fun file taken => taken = file ∧ unsafeMemberName file.1 = false)
        members out := htakes.imp fun _ _ => takes_stored_iff.mp
    clear htakes hdistinct
    induction hsame with
    | nil => exact ⟨rfl, by simp⟩
    | cons hfile _ ih =>
      obtain ⟨rfl, hrest⟩ := ih
      obtain ⟨rfl, hsafe⟩ := hfile
      exact ⟨rfl, List.forall_mem_cons.mpr ⟨hsafe, hrest⟩⟩
  · rintro ⟨rfl, hsafe⟩
    refine ⟨?_, hdistinct⟩
    rw [List.forall₂_map_left_iff]
    apply List.forall₂_same.mpr
    intro file hfile
    exact takes_stored_iff.mpr ⟨rfl, hsafe file hfile⟩

theorem sortedMembers_manifestFor (sourceSha : String) (files : FileMap) :
    sortedMembers (manifestFor sourceSha files) =
      .obj [("files", .obj (fileDigests files)), ("schema", .str bundleSchema),
        ("source_sha", .str sourceSha)] := by
  have hsource : ¬ ("source_sha" : String) ≤ "files" := by decide
  have hschema : ¬ ("schema" : String) ≤ "files" := by decide
  have hlast : ("schema" : String) ≤ "source_sha" := by decide
  simp [sortedMembers, manifestFor, sortBy, hsource, hschema, hlast]

theorem get_fileDigests {name : String} {data : Bytes} (h : (name, data) ∈ files.items) :
    Dict.get (fileDigests files) name = some (.str (sha256 data)) := by
  have hkeys : (fileDigests files).map (·.1) = (sortBy (·.1) files.items).map (·.1) := by
    unfold fileDigests
    rw [List.map_map]
    rfl
  have hdistinct : ((fileDigests files).map (·.1)).Nodup := by
    rw [hkeys]
    exact (sortBy_perm.map _).nodup_iff.mpr files.distinct
  rw [← Dict.mem_iff_get hdistinct]
  exact List.mem_map.mpr ⟨(name, data), mem_sortBy.mpr h, rfl⟩

theorem mem_keys_fileDigests {name : String} :
    name ∈ (fileDigests files).map (·.1) ↔ name ∈ files.items.map (·.1) := by
  unfold fileDigests
  rw [List.map_map]
  exact ((@sortBy_perm _ _ _ (·.1) files.items).map (·.1)).mem_iff

section Created

variable (h : Writable sourceSha files)
  (htar : Preserves P (payload P files (manifestFor sourceSha files)))
  (hjson : ReadsBack P (manifestFor sourceSha files))
include h htar hjson

omit htar in
/-- The manifest of a created bundle is the one that was written. -/
theorem manifestOf_created {manifest : Json} :
    ManifestOf P (payload P files (manifestFor sourceSha files)) manifest ↔
      manifest = sortedMembers (manifestFor sourceSha files) := by
  have hdata := h.payload_get (P := P) (manifestFor sourceSha files)
  constructor
  · rintro ⟨data, text, hget, htext, hvalue⟩
    rw [hdata] at hget
    cases hget
    rw [decode_encode] at htext
    cases htext
    exact Option.some.inj (hvalue.symm.trans hjson)
  · rintro rfl
    exact ⟨_, _, hdata, decode_encode _, hjson⟩

omit h hjson in
/-- What is extracted of a created bundle is what was written. -/
theorem extracted_created {tar : List TarMember} {members : Dict String Bytes}
    (hget : P.getmembers (P.addfiles (payload P files (manifestFor sourceSha files))) = .ok tar)
    (hmembers : Extracted tar members) : members = payload P files (manifestFor sourceSha files) ∧
      ∀ file ∈ payload P files (manifestFor sourceSha files), unsafeMemberName file.1 = false := by
  have hsame : tar = (payload P files (manifestFor sourceSha files)).map stored :=
    Except.ok.inj (hget.symm.trans htar)
  subst hsame
  exact (extracted_stored_iff (nodup_payload files _)).mp hmembers

/-- Reading a created bundle raises nothing but `BundleError`. -/
theorem not_verifyRaises_of_created (failure : BundleFailure) :
    ¬ VerifyRaises P (P.addfiles (payload P files (manifestFor sourceSha files))) failure := by
  have hmanifest := (manifestOf_created h hjson).mpr rfl
  obtain ⟨data, text, hdata, htext, hvalue⟩ := hmanifest
  intro hraises
  cases hraises with
  | opening he =>
    rw [htar] at he
    cases he
  | @reading pre post member _ _ hget _ hunreadable =>
    -- every stored file can be read
    have hmem : member ∈ (payload P files (manifestFor sourceSha files)).map stored := by
      rw [Except.ok.inj (htar.symm.trans hget)]
      simp
    obtain ⟨file, _, rfl⟩ := List.mem_map.mp hmem
    cases hunreadable.extract
  | decoding hget hextracted hother hnone =>
    obtain ⟨rfl, _⟩ := extracted_created htar hget hextracted
    rw [hdata] at hother
    cases hother
    rw [htext] at hnone
    cases hnone
  | parsing hget hextracted hother hothertext hnone =>
    obtain ⟨rfl, _⟩ := extracted_created htar hget hextracted
    rw [hdata] at hother
    cases hother
    rw [htext] at hothertext
    cases hothertext
    rw [hvalue] at hnone
    cases hnone
  | value hget hextracted hother hnone =>
    obtain ⟨rfl, _⟩ := extracted_created htar hget hextracted
    rw [(manifestOf_created h hjson).mp hother, sortedMembers_manifestFor] at hnone
    cases hnone

omit htar hjson in
/-- A name that is written is refused by the reader if it is two dots. -/
theorem safe_payload_iff :
    (∀ file ∈ payload P files (manifestFor sourceSha files), unsafeMemberName file.1 = false) ↔
      ∀ file ∈ files.items, file.1 ≠ ".." := by
  have hname (file : String × Bytes) (hfile : file ∈ files.items) :
      unsafeMemberName file.1 = false ↔ file.1 ≠ ".." := by
    rw [← Bool.not_eq_true, not_congr (unsafeMemberName_iff (h.names file hfile).2)]
  have hmanifest : unsafeMemberName manifestName = false := by decide
  constructor
  · intro hsafe file hfile
    refine (hname file hfile).mp (hsafe file ?_)
    exact (h.payload_perm _).mem_iff.mpr (List.mem_append_left _ hfile)
  · intro hdots file hfile
    rcases List.mem_append.mp ((h.payload_perm _).mem_iff.mp hfile) with hfile | hfile
    · exact (hname file hfile).mpr (hdots file hfile)
    · cases List.mem_singleton.mp hfile
      exact hmanifest

/-- **A created bundle verifies** for the commit it was created for and no other, and only if no name is
    two dots. -/
theorem verifies_created_iff {expectedSha : String} {result : Dict String Bytes} :
    Verifies P (P.addfiles (payload P files (manifestFor sourceSha files))) expectedSha result ↔
      expectedSha = sourceSha ∧ (∀ file ∈ files.items, file.1 ≠ "..") ∧
        result = (payload P files (manifestFor sourceSha files)).restrict (· ≠ manifestName) := by
  constructor
  · rintro ⟨tar, members, manifest, declared, hget, hextracted, hmanifest, hbound, hresult, -, -⟩
    obtain ⟨rfl, hsafe⟩ := extracted_created htar hget hextracted
    have hsource := hbound.source
    rw [(manifestOf_created h hjson).mp hmanifest, sortedMembers_manifestFor] at hsource
    have hsame : Json.str sourceSha = .str expectedSha := Option.some.inj hsource
    cases hsame
    exact ⟨rfl, (safe_payload_iff h).mp hsafe, hresult⟩
  · rintro ⟨rfl, hdots, rfl⟩
    have hperm := h.restrict_perm (P := P) (manifestFor expectedSha files)
    refine ⟨_, _, _, fileDigests files, htar, ?_, (manifestOf_created h hjson).mpr rfl, ?_, rfl, ?_, ?_⟩
    · exact (extracted_stored_iff (nodup_payload files _)).mpr ⟨rfl, (safe_payload_iff h).mpr hdots⟩
    · rw [sortedMembers_manifestFor]
      exact ⟨rfl, rfl, h.sha, rfl⟩
    · intro name
      rw [mem_keys_fileDigests]
      exact (hperm.map _).mem_iff
    · intro file hfile
      exact get_fileDigests (hperm.mem_iff.mp hfile)

end Created

/-! ## The round trip -/

/-- What is expected of a created bundle: it verifies as its files for its own commit, fails with
    `BundleError` for any other, and its names and its commit have the characters of the patterns. -/
structure RoundTrips (P : Libraries) (sourceSha : String) (files : FileMap) (archive : Bytes) :
    Prop where
  own : ∃ result, verifyBundle P archive sourceSha = .ok result ∧ result.Perm files.items
  other : ∀ expectedSha, expectedSha ≠ sourceSha →
    verifyBundle P archive expectedSha = .error .bundleError
  names : ∀ file ∈ files.items, OnlyListed nameCharacter file.1
  sha : OnlyListed hexDigit sourceSha

/-- A verification that neither succeeds nor lets an exception through fails with `BundleError`. -/
theorem verifyBundle_eq_bundleError {sha : String} (hok : ∀ files, ¬ Verifies P archive sha files)
    (hraises : ∀ failure, ¬ VerifyRaises P archive failure) :
    verifyBundle P archive sha = .error .bundleError := by
  cases hverify : verifyBundle P archive sha with
  | ok files => exact absurd (verifyBundle_eq_ok.mp hverify) (hok files)
  | error failure =>
    by_cases hfailure : failure = .bundleError
    · rw [hfailure]
    · exact absurd ((verifyBundle_eq_error hfailure).mp hverify) (hraises failure)

/-- **Bundles round-trip iff** no file is named by two dots and no name or commit ends in a newline,
    which is also what keeps a name or a commit that the patterns accept to the characters they list. -/
theorem bundle_round_trip_iff (P : Libraries) (sourceSha : String) (files : FileMap) (archive : Bytes)
    (hcreate : createBundle P sourceSha files = .ok archive)
    (htar : Preserves P (payload P files (manifestFor sourceSha files)))
    (hjson : ReadsBack P (manifestFor sourceSha files)) :
    (RoundTrips P sourceSha files archive ↔ (∀ file ∈ files.items, file.1 ≠ "..") ∧
      (∀ file ∈ files.items, ¬ EndsInNewline file.1) ∧ ¬ EndsInNewline sourceSha) ∧
    (∀ name, safeName name = true → (OnlyListed nameCharacter name ↔ ¬ EndsInNewline name)) ∧
    (∀ sha, fullSha sha = true → (OnlyListed hexDigit sha ↔ ¬ EndsInNewline sha)) := by
  obtain ⟨h, rfl⟩ := createBundle_eq_ok.mp hcreate
  refine ⟨⟨?_, ?_⟩, fun _ => onlyListed_of_safeName, fun _ => onlyListed_of_fullSha⟩
  · rintro ⟨⟨result, hresult, -⟩, -, hnames, hsha⟩
    obtain ⟨-, hdots, -⟩ := (verifies_created_iff h htar hjson).mp (verifyBundle_eq_ok.mp hresult)
    refine ⟨hdots, fun file hfile => ?_, (onlyListed_of_fullSha h.sha).mp hsha⟩
    exact (onlyListed_of_safeName (h.names file hfile).2).mp (hnames file hfile)
  · rintro ⟨hdots, hnames, hsha⟩
    constructor
    · exact ⟨_, verifyBundle_eq_ok.mpr ((verifies_created_iff h htar hjson).mpr ⟨rfl, hdots, rfl⟩),
        h.restrict_perm _⟩
    · intro expectedSha hother
      refine verifyBundle_eq_bundleError (fun result hresult => hother ?_)
        (not_verifyRaises_of_created h htar hjson)
      exact ((verifies_created_iff h htar hjson).mp hresult).1
    · exact fun file hfile => (onlyListed_of_safeName (h.names file hfile).2).mpr (hnames file hfile)
    · exact (onlyListed_of_fullSha h.sha).mpr hsha

section Bundles

/-- The text of the digests of the files. -/
def digestText (files : FileMap) : String :=
  ", ".intercalate ((sortBy (·.1) files.items).map fun file =>
    "\"" ++ file.1 ++ "\": \"" ++ sha256 file.2 ++ "\"")

/-- The text of the manifest. -/
def manifestText (sourceSha : String) (files : FileMap) : String :=
  "\x7b\"files\": \x7b" ++ digestText files ++ "\x7d, \"schema\": \"" ++ bundleSchema ++
    "\", \"source_sha\": \"" ++ sourceSha ++ "\"\x7d"

/-- The libraries as they meet one bundle, of which the archive has these bytes. -/
def bundleOf (sourceSha : String) (files : FileMap) (archive : Bytes) : Libraries where
  getmembers data :=
    if data = archive then
      .ok ((sortBy (·.1) (files.items.set manifestName (encode (manifestText sourceSha files)))).map
        stored)
    else .error .tarError
  addfiles _ := archive
  loads text :=
    if text = manifestText sourceSha files then some (sortedMembers (manifestFor sourceSha files))
    else none
  dumps _ := manifestText sourceSha files

theorem bundleOf_preserves (sourceSha : String) (files : FileMap) (archive : Bytes) :
    Preserves (bundleOf sourceSha files archive)
      (payload (bundleOf sourceSha files archive) files (manifestFor sourceSha files)) := by
  unfold Preserves
  simp only [bundleOf, if_true]
  rfl

theorem bundleOf_readsBack (sourceSha : String) (files : FileMap) (archive : Bytes) :
    ReadsBack (bundleOf sourceSha files archive) (manifestFor sourceSha files) := by
  unfold ReadsBack
  exact if_pos rfl

/-- The two Compose files of a release. -/
def composeFiles : FileMap where
  items := [("docker-compose.yml", encode "services:\n  redis: \x7b\x7d\n"),
    (productionComposeFile, encode "services:\n  backend: \x7b\x7d\n")]
  distinct := by decide

/-- The bytes that `tarfile` writes for the two files and their manifest. -/
def composeArchive : Bytes :=
  [31, 139, 8, 0, 165, 133, 254, 106, 2, 255, 237, 214, 205, 110, 130, 64, 16, 192, 113, 206, 62, 5,
   225, 92, 237, 178, 203, 126, 224, 203, 52, 179, 59, 179, 145, 86, 193, 176, 210, 212, 24, 223,
   189, 224, 169, 213, 164, 31, 137, 53, 77, 156, 223, 5, 66, 54, 179, 28, 248, 3, 216, 133, 23,
   234, 231, 161, 219, 108, 187, 68, 139, 109, 223, 225, 16, 118, 77, 215, 46, 246, 155, 117, 118,
   29, 98, 100, 132, 56, 29, 197, 229, 81, 8, 245, 225, 124, 186, 94, 42, 173, 69, 150, 139, 236, 6,
   134, 180, 131, 126, 220, 62, 187, 79, 137, 250, 215, 38, 80, 90, 206, 242, 220, 195, 248, 44,
   180, 184, 204, 15, 199, 89, 198, 238, 2, 126, 238, 255, 122, 209, 255, 166, 127, 105, 206, 250,
   47, 149, 229, 254, 111, 222, 127, 79, 216, 36, 174, 255, 174, 108, 160, 109, 34, 165, 221, 226,
   57, 117, 237, 31, 237, 241, 93, 255, 149, 150, 103, 253, 139, 74, 89, 238, 255, 22, 14, 69, 108,
   214, 148, 138, 49, 251, 2, 191, 250, 23, 28, 87, 20, 210, 42, 135, 210, 90, 237, 235, 218, 58,
   79, 32, 21, 69, 20, 202, 146, 245, 70, 161, 178, 128, 181, 39, 7, 149, 20, 70, 201, 74, 27, 173,
   141, 244, 149, 13, 37, 88, 105, 208, 20, 15, 121, 113, 249, 193, 153, 38, 7, 140, 80, 35, 74,
   208, 54, 214, 30, 28, 72, 138, 166, 172, 41, 56, 23, 189, 210, 178, 6, 165, 164, 132, 128, 227,
   84, 47, 163, 113, 14, 98, 141, 118, 220, 169, 212, 149, 112, 182, 56, 142, 163, 83, 88, 209, 6,
   166, 113, 176, 165, 183, 20, 160, 157, 35, 109, 215, 221, 126, 238, 135, 22, 215, 244, 88, 78,
   55, 144, 186, 161, 15, 244, 148, 86, 167, 149, 230, 135, 138, 35, 191, 43, 24, 99, 140, 49, 198,
   24, 99, 140, 49, 198, 24, 99, 140, 49, 198, 24, 99, 255, 219, 59, 217, 115, 97, 213, 0, 40, 0, 0]

/-- One file. -/
def oneFile (name : String) (data : Bytes) : FileMap where
  items := [(name, data)]
  distinct := List.nodup_singleton name

/-- The first bytes of an archive that was made by `gzip`; here they stand for the whole. -/
def gzipHeader : Bytes := [0x1f, 0x8b, 0x08, 0x00]

end Bundles

/-- The bundle of the two Compose files round-trips. -/
theorem compose_bundle_round_trips :
    RoundTrips (bundleOf "6666666666666666666666666666666666666666" composeFiles composeArchive)
      "6666666666666666666666666666666666666666" composeFiles composeArchive := by
  refine (bundle_round_trip_iff _ _ _ _ ?_ (bundleOf_preserves _ _ _)
    (bundleOf_readsBack _ _ _)).1.mpr ⟨by decide, by decide, by decide⟩
  exact createBundle_eq_ok.mpr ⟨⟨by decide, by decide⟩, rfl⟩

/-- A file that is named by two dots goes into a bundle which does not verify. -/
theorem two_dots_created_not_verified :
    ¬ ∀ (P : Libraries) (sourceSha : String) (files : FileMap) (archive : Bytes),
      createBundle P sourceSha files = .ok archive →
      Preserves P (payload P files (manifestFor sourceSha files)) →
      ReadsBack P (manifestFor sourceSha files) → RoundTrips P sourceSha files archive := by
  intro hall
  have hwritable : Writable "6666666666666666666666666666666666666666" (oneFile ".." []) :=
    ⟨by decide, by decide⟩
  have htar := bundleOf_preserves "6666666666666666666666666666666666666666" (oneFile ".." []) gzipHeader
  have hjson := bundleOf_readsBack "6666666666666666666666666666666666666666" (oneFile ".." []) gzipHeader
  obtain ⟨result, hresult, -⟩ :=
    (hall _ _ _ _ (createBundle_eq_ok.mpr ⟨hwritable, rfl⟩) htar hjson).own
  have hverifies := (verifies_created_iff hwritable htar hjson).mp (verifyBundle_eq_ok.mp hresult)
  exact hverifies.2.1 ("..", []) List.mem_cons_self rfl

end ApexScan.Deploy
