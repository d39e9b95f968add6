import ApexScan.Lib.Interleaving
import ApexScan.MarketUniverse.Store

/-!
# The steps of a promotion (`app/market_universe/store.py`)

A call of `promote`, step by step: each scan of the directory, each write of a temporary file, each
`os.link` and each `unlink` is one atomic step, and the steps of other processes may come between.

* `Phase`, `Call`, `Call.advance` — a call and its next step.
* `promoting` — the machine of all interleavings.
* `alone_eq_promote` — a call that nothing comes between does what `promote` does.
* `Known`, `Effect` — what a call knows of the directory, and what one step of it does.
* `searching_effect`, `allocating_effect`, `writing_effect`, `linking_effect`, `unlinking_effect` — the
  effect of each step.
-/

set_option autoImplicit false

namespace ApexScan.Universe

open Lib

/-! ## Calls -/

/-- Where a call of `promote` is, with the attempts that are left to it. -/
inductive Phase where
  | searching
  | allocating (attempts : ℕ)
  | writing (attempts : ℕ) (promoted : UniverseSnapshot)
  | linking (attempts : ℕ) (promoted : UniverseSnapshot)
  | unlinking (attempts : ℕ) (promoted : UniverseSnapshot) (linked : Except LinkError Unit)

/-- A call that has passed the gate, and the directory at its start. -/
structure Call where
  result : ResolutionResult
  effectiveAt : Int
  before : VersionsDir
  phase : Phase

/-- What a call returned or raised. -/
structure Finished where
  result : ResolutionResult
  before : VersionsDir
  outcome : Except PromoteError UniverseSnapshot

namespace Call

def candidate (c : Call) : UniverseSnapshot := c.result.candidate

def goto (c : Call) (phase : Phase) : Progress Call Finished := .running { c with phase := phase }

def finish (c : Call) (outcome : Except PromoteError UniverseSnapshot) : Progress Call Finished :=
  .finished ⟨c.result, c.before, outcome⟩

/-- The next step of `promote`; a scan lists the directory in the given order. -/
def advance (glob : VersionsGlob) (c : Call) (d : VersionsDir) :
    VersionsDir × Progress Call Finished :=
  match c.phase with
  | .searching =>
    match findByContent glob d c.candidate.contentSha256 with
    | some existing => (d, c.finish (.ok existing))
    | none => (d, c.goto (.allocating maxAllocationRetries))
  | .allocating 0 => (d, c.finish (.error .exhausted))
  | .allocating (attempts + 1) =>
    let promoted := c.candidate.promotedAs (nextVersion glob d) c.effectiveAt
    (d, c.goto (.writing attempts promoted))
  | .writing attempts promoted =>
    (d.write (tempName promoted.universeVersion promoted) promoted,
      c.goto (.linking attempts promoted))
  | .linking attempts promoted =>
    match d.link (tempName promoted.universeVersion promoted)
        (.version promoted.universeVersion) with
    | .ok linked => (linked, c.goto (.unlinking attempts promoted (.ok ())))
    | .error e => (d, c.goto (.unlinking attempts promoted (.error e)))
  | .unlinking attempts promoted linked =>
    (d.unlink (tempName promoted.universeVersion promoted),
      match linked with
      | .ok () => c.finish (.ok promoted)
      | .error .fileExists => c.goto (.allocating attempts)
      | .error .fileNotFound => c.finish (.error .tempMissing))

end Call

/-- The arguments of `promote`. -/
structure Request where
  result : ResolutionResult
  effectiveAt : Int

/-- `promote` as a program of steps; the gate reads no files. -/
def promoting : Program VersionsDir Call Finished Request VersionsGlob where
  start request d :=
    match validatePromotable request.result with
    | .error e => .finished ⟨request.result, d, .error (.refused e)⟩
    | .ok () => .running ⟨request.result, request.effectiveAt, d, .searching⟩
  advance glob c d := c.advance glob d

abbrev Root := Pool VersionsDir Call

/-- An empty root, without a call in progress. -/
def emptyRoot : Root := ⟨Directory.empty, []⟩

/-! ## A call alone -/

section Alone

variable {order : Call → VersionsGlob}

/-- The four steps of an attempt, one after the other. -/
theorem alone_attempt (c : Call) (attempts fuel : ℕ) (d : VersionsDir) {version : ℕ}
    {promoted : UniverseSnapshot}
    (hversion : nextVersion (order { c with phase := .allocating (attempts + 1) }) d = version)
    (hpromoted : c.candidate.promotedAs version c.effectiveAt = promoted) :
    promoting.alone order (fuel + 4) { c with phase := .allocating (attempts + 1) } d =
      match linkVersion d version promoted with
      | (d', .ok ()) => (d', c.finish (.ok promoted))
      | (d', .error .fileExists) =>
        promoting.alone order fuel { c with phase := .allocating attempts } d'
      | (d', .error .fileNotFound) => (d', c.finish (.error .tempMissing)) := by
  have hnumber : promoted.universeVersion = version := by
    rw [← hpromoted, UniverseSnapshot.promotedAs_universeVersion]
  have hcandidate : Call.candidate { c with phase := .allocating (attempts + 1) } = c.candidate := rfl
  cases hlink : (d.write (tempName version promoted) promoted).link (tempName version promoted)
      (.version version) with
  | ok linked =>
    simp only [Program.alone, promoting, Call.advance, Call.goto, hcandidate, hversion, hpromoted,
      hnumber, linkVersion, hlink]
    rfl
  | error e =>
    cases e with
    | fileNotFound =>
      simp only [Program.alone, promoting, Call.advance, Call.goto, hcandidate, hversion, hpromoted,
        hnumber, linkVersion, hlink]
      rfl
    | fileExists =>
      simp only [Program.alone, promoting, Call.advance, Call.goto, hcandidate, hversion, hpromoted,
        hnumber, linkVersion, hlink]

theorem alone_eq_allocate (c : Call) {glob : ℕ → VersionsGlob}
    (hglob : ∀ n, order { c with phase := .allocating (n + 1) } = glob n) (attempts : ℕ)
    (d : VersionsDir) :
    promoting.alone order (4 * attempts + 1) { c with phase := .allocating attempts } d =
      ((allocate glob c.candidate c.effectiveAt attempts d).1,
        c.finish (allocate glob c.candidate c.effectiveAt attempts d).2) := by
  induction attempts generalizing d with
  | zero => rfl
  | succ attempts ih =>
    have hfuel : 4 * (attempts + 1) + 1 = 4 * attempts + 1 + 4 := by omega
    rw [hfuel, alone_attempt c attempts _ d rfl rfl, hglob]
    unfold allocate
    simp only
    rcases linkVersion d (nextVersion (glob attempts) d)
      (c.candidate.promotedAs (nextVersion (glob attempts) d) c.effectiveAt) with ⟨d', linked⟩
    cases linked with
    | ok u => rfl
    | error e =>
      cases e with
      | fileNotFound => rfl
      | fileExists => exact ih d'

/-- **A call that nothing comes between does what `promote` does.** -/
theorem alone_eq_promote (c : Call) (hphase : c.phase = .searching)
    (hresult : c.result.isPromotable = true) {glob : ℕ → VersionsGlob}
    (hglob : ∀ n, order { c with phase := .allocating (n + 1) } = glob n) (d : VersionsDir) :
    promoting.alone order (4 * maxAllocationRetries + 2) c d =
      ((promote (order c) glob c.result c.effectiveAt d).1,
        c.finish (promote (order c) glob c.result c.effectiveAt d).2) := by
  have hgate := (validatePromotable_iff c.result).mpr hresult
  unfold promote
  rw [Program.alone]
  simp only [promoting, Call.advance, hphase, hgate, Call.candidate]
  cases hfind : findByContent (order c) d c.result.candidate.contentSha256 with
  | some existing => rfl
  | none => exact alone_eq_allocate c hglob maxAllocationRetries d

end Alone

/-! ## What a call knows -/

namespace Phase

/-- Past the search, with the content not published by this call. -/
def unsettled : Phase → Bool
  | .searching | .unlinking _ _ (.ok ()) => false
  | .allocating _ | .writing _ _ | .linking _ _ | .unlinking _ _ (.error _) => true

/-- The snapshot of the present attempt. -/
def promoted? : Phase → Option UniverseSnapshot
  | .searching | .allocating _ => none
  | .writing _ s | .linking _ s | .unlinking _ s _ => some s

/-- The snapshot whose temporary file is this call's. -/
def held? : Phase → Option UniverseSnapshot
  | .searching | .allocating _ | .writing _ _ => none
  | .linking _ s | .unlinking _ s _ => some s

/-- An exception is all that is left to the call. -/
def doomed : Phase → Bool
  | .allocating 0 | .unlinking _ _ (.error .fileNotFound) | .unlinking 0 _ (.error .fileExists) => true
  | _ => false

end Phase

/-- The temporary file of a snapshot that has its version. -/
def UniverseSnapshot.tempName (s : UniverseSnapshot) : FileName :=
  Universe.tempName s.universeVersion s

/-- The snapshot of an attempt has the content of the candidate and a version after the start. -/
structure Attempted (log : List UniverseSnapshot) (c : Call) (s : UniverseSnapshot) : Prop where
  sha : s.contentSha256 = c.candidate.contentSha256
  positive : 0 < s.universeVersion
  next : s.universeVersion ≤ log.length + 1
  later : ∀ v, (c.before.read (.version v)).isSome → v < s.universeVersion

/-- What a call knows of the log of snapshots and of the directory. -/
structure Known (log : List UniverseSnapshot) (d : VersionsDir) (c : Call) : Prop where
  promotable : c.result.isPromotable = true
  started : ∃ start, start <+: log ∧ Published start c.before
  unpublished : c.phase.unsettled = true → ∀ s ∈ log, s.contentSha256 ≠ c.candidate.contentSha256
  attempted : ∀ s, c.phase.promoted? = some s → Attempted log c s
  held : ∀ s, c.phase.held? = some s → d.read s.tempName = some s
  linked : ∀ attempts s, c.phase = .unlinking attempts s (.ok ()) → s ∈ log
  hopeful : c.phase.doomed = false

/-- A snapshot that is returned has the content, and is new unless the content was there before. -/
def Concluded (log : List UniverseSnapshot) (f : Finished) : Prop :=
  (f.result.isPromotable = true ∧ ∃ s ∈ log, f.outcome = .ok s ∧
    s.contentSha256 = f.result.candidate.contentSha256 ∧
    ((∃ v e, f.before.read (.version v) = some e ∧ e.contentSha256 = s.contentSha256) ∨
      ∀ v, (f.before.read (.version v)).isSome → v < s.universeVersion)) ∨
  (f.result.isPromotable = false ∧ ∃ e, f.outcome = .error e)

/-- What one step of a call does: it may append a snapshot with its content to the log, and leaves the
    files that are not its own as they are. -/
structure Effect (log : List UniverseSnapshot) (d : VersionsDir) (c : Call)
    (log' : List UniverseSnapshot) (d' : VersionsDir) (progress : Progress Call Finished) : Prop where
  grown : log' = log ∨ ∃ s, log' = log ++ [s] ∧ c.phase.unsettled = true ∧
    s.contentSha256 = c.candidate.contentSha256
  published : Published log' d'
  files : ∀ name s, d.read name = some s → (∀ t, c.phase.held? = some t → t.tempName ≠ name) →
    d'.read name = some s
  running : ∀ c', progress = .running c' → Known log' d' c' ∧ c'.result = c.result ∧
    (c'.phase.unsettled = true → c.phase.unsettled = true ∨ c.phase = .searching) ∧
    ∀ s, c'.phase.held? = some s → c.phase.held? = some s ∨ d.read s.tempName = none
  finished : ∀ f, progress = .finished f → Concluded log' f

section Steps

variable {log : List UniverseSnapshot} {d : VersionsDir} {c : Call} {glob : VersionsGlob}

/-- A version of the log that was not there at the start of a call came after it. -/
theorem Published.later_of_not_mem (h : Published log d) {start : List UniverseSnapshot}
    {before : VersionsDir} (hstart : Published start before) (hearlier : start <+: log)
    {s : UniverseSnapshot} (hs : s ∈ log) (hnew : s ∉ start) (v : ℕ)
    (hv : (before.read (.version v)).isSome) : v < s.universeVersion := by
  have hvstart := (hstart.taken_iff v).mp hv
  by_contra hle
  have htaken : (before.read (.version s.universeVersion)).isSome := by
    have := h.version_mem hs
    rw [hstart.taken_iff]
    omega
  obtain ⟨t, ht⟩ := Option.isSome_iff_exists.mp htaken
  obtain ⟨htstart, htversion⟩ := (hstart.read_iff _ t).mp ht
  have hst := h.version_inj hs (hearlier.subset htstart) htversion.symm
  exact hnew (hst ▸ htstart)

theorem Published.congr (h : Published log d) {d' : VersionsDir}
    (hsame : ∀ v, d'.read (.version v) = d.read (.version v)) : Published log d' := by
  refine ⟨fun v s => ?_, h.versions⟩
  rw [hsame, h.read_iff]

/-- A step that only looks at the directory. -/
theorem Effect.of_silent (h : Published log d) {progress : Progress Call Finished}
    (hrunning : ∀ c', progress = .running c' → Known log d c' ∧ c'.result = c.result ∧
      (c'.phase.unsettled = true → c.phase.unsettled = true ∨ c.phase = .searching) ∧
      c'.phase.held? = none)
    (hfinished : ∀ f, progress = .finished f → Concluded log f) : Effect log d c log d progress := by
  refine ⟨Or.inl rfl, h, fun name s hs _ => hs, fun c' hc' => ?_, hfinished⟩
  obtain ⟨hknown, hresult, hunsettled, hheld⟩ := hrunning c' hc'
  refine ⟨hknown, hresult, hunsettled, fun s hs => ?_⟩
  rw [hheld] at hs
  cases hs

theorem searching_effect (h : Published log d) (hknown : Known log d c)
    (hphase : c.phase = .searching) :
    Effect log d c log (c.advance glob d).1 (c.advance glob d).2 := by
  unfold Call.advance
  rw [hphase]
  simp only
  cases hfind : findByContent glob d c.candidate.contentSha256 with
  | some existing =>
    refine Effect.of_silent h (fun c' hc' => by cases hc') (fun f hf => ?_)
    cases hf
    obtain ⟨hmem, hsha⟩ := h.findByContent_some hfind
    obtain ⟨start, hearlier, hstart⟩ := hknown.started
    refine Or.inl ⟨hknown.promotable, existing, hmem, rfl, hsha, ?_⟩
    by_cases hold : existing ∈ start
    · exact Or.inl ⟨_, existing, (hstart.read_iff _ existing).mpr ⟨hold, rfl⟩, rfl⟩
    · exact Or.inr (h.later_of_not_mem hstart hearlier hmem hold)
  | none =>
    refine Effect.of_silent h (fun c' hc' => ?_) (fun f hf => by cases hf)
    cases hc'
    refine ⟨⟨hknown.promotable, hknown.started, ?_, ?_, ?_, ?_, rfl⟩, rfl, fun _ => Or.inr hphase, rfl⟩
    · exact fun _ => h.findByContent_none hfind
    · intro s hs
      cases hs
    · intro s hs
      cases hs
    · intro attempts s hs
      cases hs

theorem allocating_effect (h : Published log d) (hknown : Known log d c) {attempts : ℕ}
    (hphase : c.phase = .allocating attempts) :
    Effect log d c log (c.advance glob d).1 (c.advance glob d).2 := by
  have hunpublished := hknown.unpublished (by rw [hphase]; rfl)
  unfold Call.advance
  rw [hphase]
  cases attempts with
  | zero =>
    have hhopeful := hknown.hopeful
    rw [hphase] at hhopeful
    cases hhopeful
  | succ attempts =>
    refine Effect.of_silent h (fun c' hc' => ?_) (fun f hf => by cases hf)
    cases hc'
    refine ⟨⟨hknown.promotable, hknown.started, fun _ => hunpublished, ?_, ?_, ?_, rfl⟩, rfl,
      fun _ => Or.inl (by rw [hphase]; rfl), rfl⟩
    · intro s hs
      cases hs
      obtain ⟨start, hearlier, hstart⟩ := hknown.started
      have hlength := hearlier.length_le
      refine ⟨rfl, ?_, ?_, fun v hv => ?_⟩
      · rw [UniverseSnapshot.promotedAs_universeVersion, h.nextVersion]
        exact Nat.succ_pos _
      · rw [UniverseSnapshot.promotedAs_universeVersion, h.nextVersion]
      · have := (hstart.taken_iff v).mp hv
        rw [UniverseSnapshot.promotedAs_universeVersion, h.nextVersion]
        omega
    · intro s hs
      cases hs
    · intro attempts s hs
      cases hs

theorem writing_effect (h : Published log d) (hknown : Known log d c) {attempts : ℕ}
    {s : UniverseSnapshot} (hphase : c.phase = .writing attempts s)
    (habsent : d.read s.tempName = none) :
    Effect log d c log (c.advance glob d).1 (c.advance glob d).2 := by
  have hunpublished := hknown.unpublished (by rw [hphase]; rfl)
  have hattempted := hknown.attempted s (by rw [hphase]; rfl)
  unfold Call.advance
  rw [hphase]
  have hother (name : FileName) (hne : name ≠ s.tempName) : (d.write s.tempName s).read name =
      d.read name := Directory.read_write_of_absent habsent hne s
  refine ⟨Or.inl rfl, h.congr fun v => hother _ FileName.noConfusion, ?_, ?_, fun f hf => by cases hf⟩
  · intro name t ht _
    refine (hother name ?_).trans ht
    rintro rfl
    rw [habsent] at ht
    cases ht
  · intro c' hc'
    cases hc'
    refine ⟨⟨hknown.promotable, hknown.started, fun _ => hunpublished, ?_, ?_, ?_, rfl⟩, rfl,
      fun _ => Or.inl (by rw [hphase]; rfl), ?_⟩
    · intro t ht
      cases ht
      exact ⟨hattempted.sha, hattempted.positive, hattempted.next, hattempted.later⟩
    · intro t ht
      cases ht
      exact Directory.read_write_self d s.tempName s
    · intro attempts t ht
      cases ht
    · intro t ht
      cases ht
      exact Or.inr habsent

/-- The link fails where the version is taken; the snapshot goes to be unlinked. -/
theorem linking_taken (h : Published log d) (hknown : Known log d c) {attempts : ℕ}
    {s : UniverseSnapshot} (hphase : c.phase = .linking attempts s)
    (hlast : attempts = 0 → d.read (.version s.universeVersion) = none) {other : UniverseSnapshot}
    (htaken : d.read (.version s.universeVersion) = some other) :
    Effect log d c log (c.advance glob d).1 (c.advance glob d).2 := by
  have hunpublished := hknown.unpublished (by rw [hphase]; rfl)
  have hattempted := hknown.attempted s (by rw [hphase]; rfl)
  have hheld := hknown.held s (by rw [hphase]; rfl)
  have hlink : d.link s.tempName (.version s.universeVersion) = .error .fileExists :=
    Directory.link_of_taken hheld (by rw [htaken]; rfl)
  have hadvance : c.advance glob d =
      (d, c.goto (.unlinking attempts s (.error .fileExists))) := by
    unfold Call.advance
    rw [hphase]
    simp only
    rw [← UniverseSnapshot.tempName, hlink]
  rw [hadvance]
  refine ⟨Or.inl rfl, h, fun name t ht _ => ht, fun c' hc' => ?_, fun f hf => by cases hf⟩
  cases hc'
  refine ⟨⟨hknown.promotable, hknown.started, fun _ => hunpublished, ?_, ?_, ?_, ?_⟩, rfl,
    fun _ => Or.inl (by rw [hphase]; rfl), ?_⟩
  · intro t ht
    cases ht
    exact ⟨hattempted.sha, hattempted.positive, hattempted.next, hattempted.later⟩
  · intro t ht
    cases ht
    exact hheld
  · intro attempts t ht
    cases ht
  · cases attempts with
    | zero =>
      rw [hlast rfl] at htaken
      cases htaken
    | succ attempts => rfl
  · intro t ht
    cases ht
    exact Or.inl (by rw [hphase]; rfl)

/-- The link of a free version appends the snapshot to the log. -/
theorem linking_free (h : Published log d) (hknown : Known log d c) {attempts : ℕ}
    {s : UniverseSnapshot} (hphase : c.phase = .linking attempts s)
    (htaken : d.read (.version s.universeVersion) = none) :
    Effect log d c (log ++ [s]) (c.advance glob d).1 (c.advance glob d).2 := by
  have hattempted := hknown.attempted s (by rw [hphase]; rfl)
  have hheld := hknown.held s (by rw [hphase]; rfl)
  have hnext : s.universeVersion = log.length + 1 := by
    have hfree : ¬ (d.read (.version s.universeVersion)).isSome := by simp [htaken]
    rw [h.taken_iff] at hfree
    have hpositive := hattempted.positive
    have hle := hattempted.next
    omega
  obtain ⟨linked, hlink, hread, hkept⟩ := Directory.link_of_free hheld htaken
  have hadvance : c.advance glob d = (linked, c.goto (.unlinking attempts s (.ok ()))) := by
    unfold Call.advance
    rw [hphase]
    simp only
    rw [← UniverseSnapshot.tempName, hlink]
  rw [hadvance]
  have hmem : s ∈ log ++ [s] := by simp
  have hpublished : Published (log ++ [s]) linked := by
    rw [hnext] at hread hkept
    exact h.append hnext hread fun v hv => hkept _ (by simpa using hv)
  refine ⟨Or.inr ⟨s, rfl, by rw [hphase]; rfl, hattempted.sha⟩, hpublished, ?_, ?_,
    fun f hf => by cases hf⟩
  · intro name t ht _
    refine (hkept name ?_).trans ht
    rintro rfl
    rw [htaken] at ht
    cases ht
  · intro c' hc'
    cases hc'
    obtain ⟨start, hearlier, hstart⟩ := hknown.started
    refine ⟨⟨hknown.promotable, ⟨start, hearlier.trans (List.prefix_append _ _), hstart⟩, ?_, ?_, ?_,
      ?_, rfl⟩, rfl, ?_, ?_⟩
    · intro hunsettled
      cases hunsettled
    · intro t ht
      cases ht
      refine ⟨hattempted.sha, hattempted.positive, ?_, hattempted.later⟩
      rw [List.length_append]
      have := hattempted.next
      omega
    · intro t ht
      cases ht
      rw [hkept _ FileName.noConfusion]
      exact hheld
    · intro attempts t ht
      cases ht
      exact hmem
    · intro hunsettled
      cases hunsettled
    · intro t ht
      cases ht
      exact Or.inl (by rw [hphase]; rfl)

/-- The link fails where the version is taken, and otherwise appends the snapshot to the log. -/
theorem linking_effect (h : Published log d) (hknown : Known log d c) {attempts : ℕ}
    {s : UniverseSnapshot} (hphase : c.phase = .linking attempts s)
    (hlast : attempts = 0 → d.read (.version s.universeVersion) = none) :
    ∃ log', Effect log d c log' (c.advance glob d).1 (c.advance glob d).2 := by
  cases htaken : d.read (.version s.universeVersion) with
  | some other => exact ⟨log, linking_taken h hknown hphase hlast htaken⟩
  | none => exact ⟨log ++ [s], linking_free h hknown hphase htaken⟩

theorem unlinking_effect (h : Published log d) (hknown : Known log d c) {attempts : ℕ}
    {s : UniverseSnapshot} {linked : Except LinkError Unit}
    (hphase : c.phase = .unlinking attempts s linked) :
    Effect log d c log (c.advance glob d).1 (c.advance glob d).2 := by
  have hattempted := hknown.attempted s (by rw [hphase]; rfl)
  have hother (name : FileName) (hne : name ≠ s.tempName) :
      (d.unlink s.tempName).read name = d.read name := Directory.read_unlink_of_ne d hne
  unfold Call.advance
  rw [hphase]
  refine ⟨Or.inl rfl, h.congr fun v => hother _ FileName.noConfusion, ?_, ?_, ?_⟩
  · intro name t ht hown
    refine (hother name ?_).trans ht
    rintro rfl
    exact hown s (by rw [hphase]; rfl) rfl
  · intro c' hc'
    cases linked with
    | ok u => cases hc'
    | error e =>
      cases e with
      | fileNotFound => cases hc'
      | fileExists =>
        cases hc'
        refine ⟨⟨hknown.promotable, hknown.started, ?_, ?_, ?_, ?_, ?_⟩, rfl,
          fun _ => Or.inl (by rw [hphase]; rfl), ?_⟩
        · exact fun _ => hknown.unpublished (by rw [hphase]; rfl)
        · intro t ht
          cases ht
        · intro t ht
          cases ht
        · intro attempts t ht
          cases ht
        · have hhopeful := hknown.hopeful
          rw [hphase] at hhopeful
          cases attempts with
          | zero => cases hhopeful
          | succ attempts => rfl
        · intro t ht
          cases ht
  · intro f hf
    cases linked with
    | ok u =>
      cases hf
      have hmem := hknown.linked attempts s hphase
      exact Or.inl ⟨hknown.promotable, s, hmem, rfl, hattempted.sha, Or.inr hattempted.later⟩
    | error e =>
      cases e with
      | fileExists => cases hf
      | fileNotFound =>
        have hhopeful := hknown.hopeful
        rw [hphase] at hhopeful
        cases attempts <;> cases hhopeful

end Steps

end ApexScan.Universe
