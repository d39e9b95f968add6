import ApexScan.Services.EvidenceWindows

/-!
# The windows of a session, in any interleaving

Between the freeze of the snapshots and the partial record lies the wait for the REST statistics, in which
other calls run, the session may roll and another call may finalize the same window.  The flag of a session
that was closed stays when the session turns live again.

* `WindowsSound` — what one expects of the state: a window once for each date, marked after its artifact,
  in the state of its own date; a `finalize_session` that does not raise; and combined files that have
  every window of their date.
* `Orderly` — what the turns of the calls have to find; `Undisturbed` for the end of a finalization.
* `Recorded`, `Complete` — the invariant, kept by each operation.

Result: `windows_sound`, over all runs.  `second_interval_uncombined` is a run that fails.
-/

set_option autoImplicit false

namespace ApexScan.EvidenceObserver

open Lib Evidence SessionOhlcEvidenceObserver

/-! ## What is expected -/

/-- The artifacts of a date. -/
def artifactsOn (tradingDate : Int) (files : List Artifact) : List WindowArtifact :=
  (windowArtifacts files).filter fun a => a.tradingDate = tradingDate

/-- The windows that have an artifact of the date. -/
def windowsOn (tradingDate : Int) (files : List Artifact) : List String :=
  (artifactsOn tradingDate files).map (·.window)

/-- The last combined record of the date, if any, has every window of the date. -/
def Complete (format : Format) (tradingDate : Int) (files : List Artifact) : Prop :=
  ∀ record, lastCombined format tradingDate files = some record →
    ∀ w ∈ windowsOn tradingDate files, w ∈ record.sampleWindows

structure WindowsSound (o : SessionOhlcEvidenceObserver) : Prop where
  once : ∀ d, (windowsOn d o.files).Nodup
  partial_once : (o.partials.flatMap (·.sampleWindows)).Nodup
  written : ∀ w, o.windowPhase.get w = some .finalized →
    ∃ d, o.sessionTradingDate = some d ∧ w ∈ windowsOn d o.files
  own_date : ∀ r ∈ o.partials, o.sessionTradingDate = some r.tradingDate
  combines : ∀ env e, (o.finalizeSession env).2 ≠ .error (.notCombined e)
  complete : ∀ format d, Complete format d o.files

/-- The turn goes on to write the combined file again: the poll has no other window left, and the session
    has not been closed. -/
structure Recombines (o : SessionOhlcEvidenceObserver) (env : Environment) (format : Format)
    (rest : List String) : Prop where
  unset : o.finalized = false
  last : ∀ w ∈ rest, o.windowPhase.get w = some .finalized
  json_written : env.combinedWritten .json = true
  written : env.combinedWritten format = true

/-- What a finalization has to find after its wait: the session it started in, the window not yet
    finalized, and no combined file of the date, unless the turn replaces it. -/
structure Undisturbed (o : SessionOhlcEvidenceObserver) (env : Environment) (task : Task)
    (f : Finalization) : Prop where
  same_date : o.sessionTradingDate = some f.tradingDate
  not_finalized : o.windowPhase.get f.window ≠ some .finalized
  uncombined : ∀ format, lastCombined format f.tradingDate o.files ≠ none →
    ∃ rest, task = .closing f rest ∧ Recombines o env format rest

/-- A session that is opened anew is not one of which there are artifacts. -/
def OpensAnew (config : Config) (env : Environment) (o : SessionOhlcEvidenceObserver) : Prop :=
  let session := config.classify env.classifiedAt
  session.marketState = .liveSession → o.sessionTradingDate ≠ some session.tradingDate →
    windowsOn session.tradingDate o.files = []

/-- The condition of a run: each turn of a call finds what it has to, where it opens a session or writes
    the artifact of a window. -/
def Orderly (config : Config) (pool : Observing) : Input → Prop
  | .act (.turn (.advance process env)) => ∀ task, pool.tasks.get process = some task →
      (task.finalization = none → OpensAnew config env pool.shared) ∧
      ∀ f, task.finalization = some f → env.windowWritten = true → Undisturbed pool.shared env task f
  | _ => True

/-! ## The invariant -/

variable {config : Config} {env : Environment} {o : SessionOhlcEvidenceObserver}

structure Recorded (config : Config) (o : SessionOhlcEvidenceObserver) : Prop where
  own : ∀ a ∈ windowArtifacts o.files,
    a.record.key = (a.tradingDate, config.sessionIdentity, config.sourceSha) ∧
      a.record.sampleWindows = [a.window]
  once : ∀ d, (windowsOn d o.files).Nodup
  partials : o.partials =
    (o.sessionTradingDate.map fun d => (artifactsOn d o.files).map (·.record)).getD []
  marked : ∀ w, o.windowPhase.get w = some .finalized ↔
    ∃ d, o.sessionTradingDate = some d ∧ w ∈ windowsOn d o.files

theorem windowsOn_congr {files files' : List Artifact} (h : windowArtifacts files = windowArtifacts files')
    (d : Int) : windowsOn d files = windowsOn d files' := by
  unfold windowsOn artifactsOn
  rw [h]

namespace Recorded

theorem partials_of_date (h : Recorded config o) {d : Int} (hd : o.sessionTradingDate = some d) :
    o.partials = (artifactsOn d o.files).map (·.record) := by
  rw [h.partials, hd]
  rfl

/-- The windows of the partial records are those of the session's artifacts. -/
theorem windows (h : Recorded config o) {d : Int} (hd : o.sessionTradingDate = some d) :
    o.partials.flatMap (·.sampleWindows) = windowsOn d o.files := by
  rw [h.partials_of_date hd]
  unfold windowsOn
  have hown : ∀ a ∈ artifactsOn d o.files, a.record.sampleWindows = [a.window] := fun a ha =>
    (h.own a (List.mem_of_mem_filter ha)).2
  generalize artifactsOn d o.files = artifacts at hown ⊢
  induction artifacts with
  | nil => rfl
  | cons a artifacts ih =>
    rw [List.map_cons, List.flatMap_cons, hown a List.mem_cons_self, List.map_cons,
      ih fun b hb => hown b (List.mem_cons_of_mem _ hb)]
    rfl

/-- The partial records combine. -/
theorem combines (h : Recorded config o) {d : Int} (hd : o.sessionTradingDate = some d)
    (hne : o.partials ≠ []) : ∃ record, combineRecords o.partials = .ok record := by
  refine @combineRecords_of_nodup _ (d, config.sessionIdentity, config.sourceSha) ?_ ?_ hne
  · intro r hr
    rw [h.partials_of_date hd] at hr
    obtain ⟨a, ha, rfl⟩ := List.mem_map.mp hr
    obtain ⟨ha, hdate⟩ := List.mem_filter.mp ha
    rw [(h.own a ha).1, of_decide_eq_true hdate]
  · rw [h.windows hd]
    exact h.once d

theorem sound (h : Recorded config o) (hcomplete : ∀ format d, Complete format d o.files) :
    WindowsSound o := by
  refine ⟨h.once, ?_, fun w => (h.marked w).mp, ?_, ?_, hcomplete⟩
  · cases hd : o.sessionTradingDate with
    | none =>
      rw [h.partials, hd]
      exact List.nodup_nil
    | some d =>
      rw [h.windows hd]
      exact h.once d
  · intro r hr
    cases hd : o.sessionTradingDate with
    | none =>
      rw [h.partials, hd] at hr
      cases hr
    | some d =>
      rw [h.partials_of_date hd] at hr
      obtain ⟨a, ha, rfl⟩ := List.mem_map.mp hr
      obtain ⟨ha, hdate⟩ := List.mem_filter.mp ha
      have hkey := congrArg Prod.fst (h.own a ha).1
      rw [of_decide_eq_true hdate] at hkey
      exact congrArg some hkey.symm
  · intro env e
    unfold finalizeSession
    split
    · exact fun hcase => by cases hcase
    · exact fun hcase => by cases hcase
    · rename_i d hd hne
      obtain ⟨record, hrecord⟩ := h.combines hd hne
      rw [hrecord]
      simp only [writeOutputs]
      split
      · split
        · exact fun hcase => by cases hcase
        · exact fun hcase => by cases hcase
      · exact fun hcase => by cases hcase

/-- The invariant reads the partial records, the phases, the date and the window artifacts. -/
theorem congr (h : Recorded config o) {o' : SessionOhlcEvidenceObserver}
    (hpartials : o'.partials = o.partials) (hphase : o'.windowPhase = o.windowPhase)
    (hdate : o'.sessionTradingDate = o.sessionTradingDate)
    (hartifacts : windowArtifacts o'.files = windowArtifacts o.files) : Recorded config o' := by
  refine ⟨?_, ?_, ?_, ?_⟩
  · rw [hartifacts]
    exact h.own
  · intro d
    rw [windowsOn_congr hartifacts]
    exact h.once d
  · unfold artifactsOn
    rw [hpartials, hdate, hartifacts]
    exact h.partials
  · intro w
    simp only [windowsOn_congr hartifacts]
    rw [hphase, hdate]
    exact h.marked w

end Recorded

/-! ## Opening a session and a window -/

theorem Recorded.rollSession (h : Recorded config o) {d : Int}
    (hnew : o.sessionTradingDate ≠ some d → windowsOn d o.files = []) :
    Recorded config (o.rollSession config d) := by
  unfold SessionOhlcEvidenceObserver.rollSession
  split
  · exact h
  · rename_i hne
    have hwindows := hnew hne
    have hartifacts : artifactsOn d o.files = [] := List.map_eq_nil_iff.mp hwindows
    cases hold : o.sessionTradingDate with
    | none =>
      refine ⟨h.own, h.once, ?_, ?_⟩
      · have hpartials := h.partials
        rw [hold] at hpartials
        simp only [Option.map_some, Option.getD_some, hartifacts, List.map_nil]
        exact hpartials
      · intro w
        have hmarked := h.marked w
        rw [hold] at hmarked
        simp only [Option.some.injEq, exists_eq_left', hwindows, List.not_mem_nil, iff_false]
        intro hcase
        obtain ⟨d', hd', -⟩ := hmarked.mp hcase
        cases hd'
    | some old =>
      refine ⟨h.own, h.once, ?_, ?_⟩
      · simp only [Option.map_some, Option.getD_some, hartifacts, List.map_nil]
      · intro w
        simp only [Option.some.injEq, exists_eq_left', hwindows, List.not_mem_nil, iff_false]
        intro hcase
        cases hcase

/-- Only a window that has not started begins to collect. -/
theorem Recorded.openWindow (h : Recorded config o) (now : Int) :
    Recorded config (o.openWindow config now) := by
  unfold SessionOhlcEvidenceObserver.openWindow
  split
  · exact h
  · rename_i band _
    split
    · rename_i hnone
      refine ⟨h.own, h.once, h.partials, ?_⟩
      intro w
      unfold beginCollecting
      rw [← h.marked w]
      simp only [Dict.get_set]
      split
      · rename_i hw
        subst hw
        rw [hnone]
        simp
      · rfl
    · exact h

/-! ## The end of a finalization -/

theorem commit_artifacts (f : Finalization) (d : Int) :
    artifactsOn d (o.commit config env f).files =
      artifactsOn d o.files ++ if f.tradingDate = d then [artifactOf config env o f] else [] := by
  unfold artifactsOn
  rw [commit_windowArtifacts, List.filter_append, List.filter_cons, List.filter_nil]
  simp only [decide_eq_true_eq]
  rfl

theorem commit_windows (f : Finalization) (d : Int) :
    windowsOn d (o.commit config env f).files =
      windowsOn d o.files ++ if f.tradingDate = d then [f.window] else [] := by
  unfold windowsOn
  rw [commit_artifacts, List.map_append]
  congr 1
  split <;> rfl

/-- A finalization that ends undisturbed adds its window to its own date. -/
theorem Recorded.commit (h : Recorded config o) {f : Finalization}
    (hdate : o.sessionTradingDate = some f.tradingDate)
    (hopen : o.windowPhase.get f.window ≠ some .finalized) :
    Recorded config (o.commit config env f) := by
  have hfresh : f.window ∉ windowsOn f.tradingDate o.files := fun hmem =>
    hopen ((h.marked f.window).mpr ⟨f.tradingDate, hdate, hmem⟩)
  have hsession : (o.commit config env f).sessionTradingDate = some f.tradingDate := hdate
  refine ⟨?_, ?_, ?_, ?_⟩
  · intro a ha
    rw [commit_windowArtifacts] at ha
    rcases List.mem_append.mp ha with ha | ha
    · exact h.own a ha
    · obtain rfl := List.mem_singleton.mp ha
      exact ⟨rfl, rfl⟩
  · intro d
    rw [commit_windows]
    split
    · rename_i hd
      subst hd
      rw [List.nodup_append_comm, List.singleton_append, List.nodup_cons]
      exact ⟨hfresh, h.once _⟩
    · rw [List.append_nil]
      exact h.once d
  · rw [hsession, Option.map_some, Option.getD_some, commit_artifacts, if_pos rfl, List.map_append,
      ← h.partials_of_date hdate]
    rfl
  · intro w
    rw [hsession]
    simp only [Option.some.injEq, exists_eq_left', commit_windows, if_true, List.mem_append,
      List.mem_singleton]
    unfold SessionOhlcEvidenceObserver.commit
    simp only [Dict.get_set]
    split
    · rename_i hw
      simp [hw]
    · rename_i hw
      rw [h.marked w, hdate]
      simp [Ne.symm hw]

theorem commit_lastCombined (f : Finalization) (format : Format) (d : Int) :
    lastCombined format d (o.commit config env f).files = lastCombined format d o.files := by
  unfold lastCombined commit
  rw [List.filterMap_append]
  simp [Artifact.ofCombined]

/-- The combined files stay complete, where there is none of the date or the date is another. -/
theorem Complete.commit {format : Format} {d : Int} (h : Complete format d o.files) {f : Finalization}
    (hnone : f.tradingDate = d → lastCombined format d o.files = none) :
    Complete format d (o.commit config env f).files := by
  intro record hrecord w hw
  rw [commit_lastCombined] at hrecord
  rw [commit_windows] at hw
  by_cases hd : f.tradingDate = d
  · rw [hnone hd] at hrecord
    cases hrecord
  · rw [if_neg hd, List.append_nil] at hw
    exact h record hrecord w hw

/-! ## Combining -/

/-- The last combined record after combined files of one date were added. -/
theorem lastCombined_combined (formats : List Format) (tradingDate : Int) (record : EvidenceRecord)
    (verdict : Verdict) (files : List Artifact) (format : Format) (d : Int) :
    lastCombined format d
        (files ++ formats.map fun format => .combined format tradingDate record verdict) =
      if format ∈ formats ∧ tradingDate = d then some record else lastCombined format d files := by
  unfold lastCombined
  rw [List.filterMap_append, List.getLast?_append]
  have hadded : (formats.map fun format => Artifact.combined format tradingDate record verdict).filterMap
      (·.ofCombined format d) = (formats.filter fun f => f = format ∧ tradingDate = d).map
        fun _ => record := by
    induction formats with
    | nil => rfl
    | cons f formats ih =>
      rw [List.map_cons, List.filterMap_cons, List.filter_cons, ih]
      by_cases hf : f = format ∧ tradingDate = d
      · rw [if_pos (decide_eq_true hf)]
        simp only [Artifact.ofCombined, if_pos hf, List.map_cons]
      · rw [if_neg (decide_eq_false hf ▸ Bool.false_ne_true)]
        simp only [Artifact.ofCombined, if_neg hf]
  rw [hadded]
  by_cases hin : format ∈ formats ∧ tradingDate = d
  · rw [if_pos hin]
    have hne : (formats.filter fun f => f = format ∧ tradingDate = d) ≠ [] :=
      List.ne_nil_of_mem (List.mem_filter.mpr ⟨hin.1, by simp [hin.2]⟩)
    rw [List.getLast?_map, List.getLast?_eq_some_getLast hne]
    rfl
  · rw [if_neg hin]
    have hnil : (formats.filter fun f => f = format ∧ tradingDate = d) = [] := by
      rw [List.filter_eq_nil_iff]
      intro f hf hcase
      obtain ⟨rfl, hd⟩ := of_decide_eq_true hcase
      exact hin ⟨hf, hd⟩
    rw [hnil]
    rfl

/-- What `finalize_session` does with the records of an orderly session. -/
theorem Recorded.finalizeSession (h : Recorded config o) :
    Recorded config (o.finalizeSession env).1 ∧
      ∀ format d, (Complete format d o.files ∨ (o.partials ≠ [] ∧ o.sessionTradingDate = some d ∧
          env.combinedWritten .json = true ∧ env.combinedWritten format = true)) →
        Complete format d (o.finalizeSession env).1.files := by
  by_cases hready : o.partials ≠ [] ∧ ∃ d, o.sessionTradingDate = some d
  · obtain ⟨hne, date, hdate⟩ := hready
    obtain ⟨combined, hcombined⟩ := h.combines hdate hne
    obtain ⟨reconnect, verdict, heq⟩ := @finalizeSession_eq env o _ _ hne hdate hcombined
    obtain ⟨formats, hstate, hformats⟩ :=
      @writeOutputs_cases env o date { combined with reconnect := some reconnect } verdict
    have hartifacts : windowArtifacts (o.finalizeSession env).1.files = windowArtifacts o.files := by
      rw [heq, hstate, windowArtifacts_append, windowArtifacts_combined, List.append_nil]
    refine ⟨?_, ?_⟩
    · refine h.congr ?_ ?_ ?_ hartifacts
      · rw [heq, hstate]
      · rw [heq, hstate]
      · rw [heq, hstate]
    · intro format d hcomplete record hrecord w hw
      rw [windowsOn_congr hartifacts] at hw
      rw [heq, hstate, lastCombined_combined] at hrecord
      split at hrecord
      · rename_i hin
        cases hrecord
        cases hin.2
        refine (mem_sampleWindows_of_combine hcombined).mpr ?_
        rw [h.windows hdate]
        exact hw
      · rename_i hnot
        rcases hcomplete with hcomplete | ⟨-, hd, hjson, hwritten⟩
        · exact hcomplete record hrecord w hw
        · cases hdate.symm.trans hd
          exact absurd ⟨(hformats format).mpr ⟨hjson, hwritten⟩, rfl⟩ hnot
  · have hsame : (o.finalizeSession env).1 = o := by
      rcases @finalizeSession_cases env o with hsame | ⟨d, -, hne, hdate, -⟩
      · exact hsame
      · exact absurd ⟨hne, d, hdate⟩ hready
    rw [hsame]
    refine ⟨h, ?_⟩
    rintro format d (hcomplete | ⟨hne, hdate, -⟩)
    · exact hcomplete
    · exact absurd ⟨hne, d, hdate⟩ hready

theorem Recorded.closeSession (h : Recorded config o) :
    Recorded config (o.closeSession env).1 ∧
      ∀ format d, Complete format d o.files → Complete format d (o.closeSession env).1.files := by
  rcases @closeSession_cases env o with hsame | ⟨finalized, heq⟩
  · rw [hsame]
    exact ⟨h, fun _ _ hcomplete => hcomplete⟩
  · rw [heq]
    obtain ⟨hrecorded, hkept⟩ := @Recorded.finalizeSession config env o h
    exact ⟨hrecorded.congr rfl rfl rfl rfl, fun format d hcomplete => hkept format d (.inl hcomplete)⟩

/-- The first closing of a session with a finalized window leaves a complete combined file. -/
theorem Recorded.closeSession_complete (h : Recorded config o) {w : String} {format : Format} {d : Int}
    (hdate : o.sessionTradingDate = some d) (hmarked : o.windowPhase.get w = some .finalized)
    (hunset : o.finalized = false) (hjson : env.combinedWritten .json = true)
    (hwritten : env.combinedWritten format = true) :
    Complete format d (o.closeSession env).1.files := by
  have hany : o.windowPhase.any (fun kv => kv.2 = .finalized) = true := by
    obtain ⟨kv, hkv, hphase⟩ := Option.map_eq_some_iff.mp hmarked
    exact List.any_eq_true.mpr ⟨kv, List.mem_of_find?_eq_some hkv, decide_eq_true hphase⟩
  have hne : o.partials ≠ [] := by
    intro hnil
    obtain ⟨d', hd', hmem⟩ := (h.marked w).mp hmarked
    rw [← h.windows hd', hnil] at hmem
    cases hmem
  have hcomplete : Complete format d (o.finalizeSession env).1.files :=
    (@Recorded.finalizeSession config env o h).2 format d (.inr ⟨hne, hdate, hjson, hwritten⟩)
  unfold SessionOhlcEvidenceObserver.closeSession
  rw [if_pos ⟨hany, hunset⟩]
  split
  · rename_i closed heq
    rw [heq] at hcomplete
    exact hcomplete
  · rename_i closed e heq
    rw [heq] at hcomplete
    exact hcomplete

/-! ## A turn -/

/-- A poll that finds every window finalized closes at once. -/
theorem finalizeAllCollecting_of_finalized {windows : List String}
    (h : ∀ w ∈ windows, o.windowPhase.get w = some .finalized) :
    (o.finalizeAllCollecting env windows).1 = (o.closeSession env).1 := by
  induction windows with
  | nil =>
    unfold finalizeAllCollecting
    split
    · rename_i closed heq
      rw [heq]
    · rename_i closed e heq
      rw [heq]
  | cons w rest ih =>
    have hrest := ih fun w' hw' => h w' (List.mem_cons_of_mem _ hw')
    unfold finalizeAllCollecting
    split
    · exact hrest
    · have hdone : o.finalizeStart w ‹Int› = none := if_pos (h w List.mem_cons_self)
      rw [hdone]
      exact hrest

theorem Rested.keeps {o' : SessionOhlcEvidenceObserver} (hrested : Rested config env o o')
    (h : Recorded config o) :
    Recorded config o' ∧ ∀ format d, Complete format d o.files → Complete format d o'.files := by
  cases hrested with
  | same => exact ⟨h, fun _ _ hcomplete => hcomplete⟩
  | opened now =>
    refine ⟨h.openWindow now, ?_⟩
    rw [openWindow_files]
    exact fun _ _ hcomplete => hcomplete
  | closed => exact h.closeSession

/-- **A turn** that meets the condition keeps the invariant. -/
theorem advance_recorded {task : Task} (h : Recorded config o)
    (hcomplete : ∀ format d, Complete format d o.files)
    (hopens : task.finalization = none → OpensAnew config env o)
    (hends : ∀ f, task.finalization = some f → env.windowWritten = true → Undisturbed o env task f) :
    Recorded config (o.advance config env task).1 ∧
      ∀ format d, Complete format d (o.advance config env task).1.files := by
  obtain ⟨⟨entered, hentered, hrested⟩, -⟩ := @advance_cases config env o task
  cases hentered with
  | same =>
    obtain ⟨hrecorded, hkept⟩ := hrested.keeps h
    exact ⟨hrecorded, fun format d => hkept format d (hcomplete format d)⟩
  | rolled hnone hlive =>
    obtain ⟨hrecorded, hkept⟩ := hrested.keeps (h.rollSession (hopens hnone hlive))
    rw [rollSession_files] at hkept
    exact ⟨hrecorded, fun format d => hkept format d (hcomplete format d)⟩
  | committed f hf hwritten =>
    obtain ⟨hdate, hopen, huncombined⟩ := hends f hf hwritten
    have hcommitted : Recorded config (o.commit config env f) := h.commit hdate hopen
    obtain ⟨hrecorded, hkept⟩ := hrested.keeps hcommitted
    refine ⟨hrecorded, ?_⟩
    intro format d
    by_cases hlast : f.tradingDate = d ∧ lastCombined format d o.files ≠ none
    · -- there is a combined file of the date, so the turn is that of a poll that writes it again
      obtain ⟨rfl, hlast⟩ := hlast
      obtain ⟨rest, rfl, hagain⟩ := huncombined format hlast
      have hmarked : (o.commit config env f).windowPhase.get f.window = some .finalized :=
        Dict.get_set_self _ _ _
      have hrest : ∀ w ∈ rest, (o.commit config env f).windowPhase.get w = some .finalized := by
        intro w hw
        unfold SessionOhlcEvidenceObserver.commit
        simp only [Dict.get_set]
        split
        · rfl
        · exact hagain.last w hw
      simp only [advance, finalizeEnd, hwritten, if_true]
      rw [finalizeAllCollecting_of_finalized hrest]
      exact hcommitted.closeSession_complete hdate hmarked hagain.unset hagain.json_written
        hagain.written
    · refine hkept format d ((hcomplete format d).commit fun hd => ?_)
      by_contra hne
      exact hlast ⟨hd, hne⟩

/-- What holds in every state of an orderly run. -/
structure OrderlyState (config : Config) (o : SessionOhlcEvidenceObserver) : Prop where
  recorded : Recorded config o
  complete : ∀ format d, Complete format d o.files

theorem step_orderly {pool : Observing} {input : Input} (hmeets : Orderly config pool input)
    (h : OrderlyState config pool.shared) : OrderlyState config (step config pool input).1.shared := by
  obtain ⟨hrecorded, hcomplete⟩ := h
  have hsame {o' : SessionOhlcEvidenceObserver} (hpartials : o'.partials = pool.shared.partials)
      (hphase : o'.windowPhase = pool.shared.windowPhase)
      (hdate : o'.sessionTradingDate = pool.shared.sessionTradingDate)
      (hfiles : o'.files = pool.shared.files) : OrderlyState config o' := by
    refine ⟨hrecorded.congr hpartials hphase hdate (congrArg _ hfiles), ?_⟩
    rw [hfiles]
    exact hcomplete
  cases input with
  | context context =>
    simp only [step]
    split
    · unfold onContext Observer.recordSnapshot
      split
      · exact ⟨hrecorded, hcomplete⟩
      · exact hsame rfl rfl rfl rfl
    · exact ⟨hrecorded, hcomplete⟩
  | act action =>
    cases action with
    | turn turn =>
      simp only [step, act]
      rcases @step_shared _ _ _ _ _ (observing config) pool turn with
        heq | ⟨process, env, task, rfl, htask, heq⟩
      · rw [heq]
        exact ⟨hrecorded, hcomplete⟩
      · rw [heq]
        obtain ⟨hopens, hends⟩ := hmeets task htask
        obtain ⟨hrecorded', hcomplete'⟩ := advance_recorded hrecorded hcomplete hopens hends
        exact ⟨hrecorded', hcomplete'⟩
    | subscribe now =>
      simp only [step, act]
      split
      · exact ⟨hrecorded, hcomplete⟩
      · exact hsame rfl rfl rfl rfl
    | unsubscribe => exact hsame rfl rfl rfl rfl
    | onFeedContinuity event =>
      simp only [step, act, Observer.onFeedContinuity]
      split
      · exact hsame rfl rfl rfl rfl
      · split
        · unfold Observer.captureReconnect
          simp only
          split
          · exact hsame rfl rfl rfl rfl
          · exact hsame rfl rfl rfl rfl
        · exact ⟨hrecorded, hcomplete⟩
    | finalizeSession env =>
      obtain ⟨hrecorded', hkept⟩ := @Recorded.finalizeSession config env pool.shared hrecorded
      exact ⟨hrecorded', fun format d => hkept format d (.inl (hcomplete format d))⟩

theorem orderly_idle : OrderlyState config idle.shared := by
  refine ⟨⟨?_, ?_, rfl, ?_⟩, ?_⟩
  · intro a ha
    cases ha
  · intro d
    exact List.nodup_nil
  · intro w
    constructor
    · intro hcase
      cases hcase
    · rintro ⟨d, hd, -⟩
      cases hd
  · intro format d record hrecord
    cases hrecord

/-- **The windows of a session.**  In every interleaving of polls, captures, contexts and continuity facts,
    with writes and loads that fail at any time, whose turns find what they have to, every state is as
    expected. -/
theorem windows_sound (config : Config) (inputs : List Input)
    (h : Along (step config) (Orderly config) idle inputs) (before after : List Input)
    (hinputs : inputs = before ++ after) : WindowsSound (run (step config) idle before).shared := by
  subst hinputs
  have hbefore := ((along_append idle before after).mp h).1
  have hstate : OrderlyState config (run (step config) idle before).shared :=
    @Along.invariant _ _ _ _ _ (fun pool => OrderlyState config pool.shared)
      (fun _ _ hmeets hpool => step_orderly hmeets hpool) _ _ hbefore orderly_idle
  exact hstate.recorded.sound hstate.complete

/-! ## A halted session -/

/-- On 2024-10-04 the exchange is halted from 10:00 to 11:00. -/
def haltedConfig : Config where
  instruments := [reliance]
  classify := fun instant =>
    nseClassifier.classify instant
      (20000 * day + 270 * minute ≤ instant ∧ instant < 20000 * day + 330 * minute)
  sourceSha := "deadbee"
  exchangeTimezone := kolkata

/-- The early window is finalized at its deadline, and the halt closes the session. -/
def halted : List Input :=
  (pollAt 20000 560 ++ waitingPollAt 20000 566 ++ pollAt 20000 600).map .act

theorem halted_sound : WindowsSound (run (step haltedConfig) idle halted).shared := by
  refine windows_sound haltedConfig halted ?_ halted [] (List.append_nil _).symm
  refine ⟨trivial, ?_, trivial, ?_, ?_, trivial, ?_, trivial⟩
  · rintro task ⟨⟩
    refine ⟨fun _ _ _ => rfl, ?_⟩
    rintro f ⟨⟩
  · rintro task ⟨⟩
    refine ⟨fun _ _ hnew => absurd rfl hnew, ?_⟩
    rintro f ⟨⟩
  · rintro task ⟨⟩
    refine ⟨fun hcase => by (cases hcase), ?_⟩
    rintro f ⟨⟩ _
    refine ⟨rfl, by decide, ?_⟩
    intro format hlast
    exact absurd rfl hlast
  · rintro task ⟨⟩
    refine ⟨fun _ _ hnew => absurd rfl hnew, ?_⟩
    rintro f ⟨⟩

/-- After the halt the mid window is finalized, and the session ends at 15:31. -/
def resumed : List Input :=
  halted ++ (pollAt 20000 720 ++ waitingPollAt 20000 726 ++ pollAt 20000 931).map .act

/-- When all polls are done, the combined file has the early window only. -/
theorem second_interval_uncombined :
    (run (step haltedConfig) idle resumed).tasks = [] ∧
      ¬ WindowsSound (run (step haltedConfig) idle resumed).shared := by
  refine ⟨rfl, ?_⟩
  intro h
  have hlast : ∃ record,
      lastCombined .json 20000 (run (step haltedConfig) idle resumed).shared.files = some record ∧
        record.sampleWindows = ["early"] := ⟨_, rfl, rfl⟩
  have hwindows : windowsOn 20000 (run (step haltedConfig) idle resumed).shared.files =
      ["early", "mid"] := rfl
  obtain ⟨record, hrecord, hearly⟩ := hlast
  have hmid := h.complete .json 20000 record hrecord "mid" (by rw [hwindows]; simp)
  rw [hearly] at hmid
  simp at hmid

end ApexScan.EvidenceObserver
