import ApexScan.MarketUniverse.Promotion

/-!
# Concurrent promotions (`app/market_universe/store.py`)

Any number of processes call `promote` on one root, and their steps interleave in any order.

* `Undisturbed` — the steps that keep clear of the other calls.
* `promoting_respects` — what each call knows survives the undisturbed steps of the others.
* `Exclusive` — what one expects of promotions, whatever their interleaving.

Main result: `promotions_exclusive`, for the interleavings of undisturbed steps.
`equal_contents_get_two_versions` is an interleaving of two calls with one content.
-/

set_option autoImplicit false

namespace ApexScan.Universe

open Lib

/-! ## Any interleaving -/

/-- Whether the next step of a call keeps clear of the other calls. -/
def Call.undisturbed (root : Root) (c : Call) : Bool :=
  match c.phase with
  | .searching => root.tasks.all fun other =>
      !(other.2.phase.unsettled && other.2.candidate.contentSha256 = c.candidate.contentSha256)
  | .writing _ promoted => (root.shared.read promoted.tempName).isNone
  | .linking 0 promoted => (root.shared.read (.version promoted.universeVersion)).isNone
  | _ => true

/-- No call searches for a content that another is about to publish, writes a temporary file that is
    there, or is late at its last attempt. -/
def Undisturbed (root : Root) : Turn Request VersionsGlob → Prop
  | .start _ _ => True
  | .advance process _ => ∀ c ∈ root.tasks.get process, c.undisturbed root = true

instance (root : Root) : ∀ turn, Decidable (Undisturbed root turn)
  | .start _ _ => isTrue trivial
  | .advance process _ => inferInstanceAs (Decidable (∀ c ∈ root.tasks.get process, _))

/-- Two calls neither publish one content nor share a temporary file. -/
structure Apart (c other : Call) : Prop where
  contents : c.phase.unsettled = true → other.phase.unsettled = true →
    c.candidate.contentSha256 ≠ other.candidate.contentSha256
  files : ∀ s t, c.phase.held? = some s → other.phase.held? = some t → s.tempName ≠ t.tempName

/-- What is asserted of the root, in terms of the log of published snapshots. -/
def assertions : Assertions (List UniverseSnapshot) VersionsDir Call Finished where
  grows := (· <+: ·)
  shared log d := Published log d ∧ (log.map (·.contentSha256)).Nodup
  task := Known
  apart := Apart
  result := Concluded
  symm := fun _ _ h =>
    ⟨fun ht hu => (h.contents hu ht).symm, fun s t hs ht => (h.files t s ht hs).symm⟩
  refl := List.prefix_refl
  trans := fun _ _ _ => List.IsPrefix.trans
  result_grows := by
    rintro log log' f hearlier (⟨hresult, s, hs, hconcluded⟩ | hrefused)
    · exact Or.inl ⟨hresult, s, hearlier.subset hs, hconcluded⟩
    · exact Or.inr hrefused

section Interleaving

variable {log log' : List UniverseSnapshot} {d d' : VersionsDir} {c : Call}
  {progress : Progress Call Finished}

theorem Effect.grows (h : Effect log d c log' d' progress) : log <+: log' := by
  rcases h.grown with rfl | ⟨s, rfl, _, _⟩
  · exact List.prefix_refl log'
  · exact List.prefix_append log [s]

/-- No content is published twice. -/
theorem Effect.distinct (h : Effect log d c log' d' progress) (hknown : Known log d c)
    (hdistinct : (log.map (·.contentSha256)).Nodup) : (log'.map (·.contentSha256)).Nodup := by
  rcases h.grown with rfl | ⟨s, rfl, hunsettled, hsha⟩
  · exact hdistinct
  · rw [List.map_append, List.map_cons, List.map_nil, List.nodup_append]
    refine ⟨hdistinct, List.nodup_singleton _, ?_⟩
    intro sha hmem other hother
    obtain ⟨t, ht, rfl⟩ := List.mem_map.mp hmem
    rw [List.mem_singleton] at hother
    rw [hother, hsha]
    exact hknown.unpublished hunsettled t ht

/-- What a call knows survives the step of another that is apart from it. -/
theorem Known.survives {other : Call} (hother : Known log d other)
    (h : Effect log d c log' d' progress) (hapart : Apart c other) : Known log' d' other := by
  have hgrows := h.grows
  refine ⟨hother.promotable, ?_, ?_, ?_, ?_, ?_, hother.hopeful⟩
  · obtain ⟨start, hearlier, hstart⟩ := hother.started
    exact ⟨start, hearlier.trans hgrows, hstart⟩
  · intro hunsettled s hs
    rcases h.grown with rfl | ⟨t, rfl, ht, hsha⟩
    · exact hother.unpublished hunsettled s hs
    · rcases List.mem_append.mp hs with hs | hs
      · exact hother.unpublished hunsettled s hs
      · rw [List.mem_singleton.mp hs, hsha]
        exact hapart.contents ht hunsettled
  · intro s hs
    have hattempted := hother.attempted s hs
    have hlength := hgrows.length_le
    have hnext := hattempted.next
    exact ⟨hattempted.sha, hattempted.positive, by omega, hattempted.later⟩
  · intro s hs
    exact h.files _ s (hother.held s hs) fun t ht => hapart.files t s ht hs
  · intro attempts s hs
    exact hgrows.subset (hother.linked attempts s hs)

/-- After its step a call is apart from the others. -/
theorem Effect.apart {other c' : Call} (h : Effect log d c log' d' (.running c'))
    (hother : Known log d other) (hapart : Apart c other)
    (hsearch : c.phase = .searching → other.phase.unsettled = true →
      other.candidate.contentSha256 ≠ c.candidate.contentSha256) : Apart c' other := by
  obtain ⟨_, hresult, hunsettled, hheld⟩ := h.running c' rfl
  constructor
  · intro hc' ho
    have hcandidate : c'.candidate = c.candidate := congrArg ResolutionResult.candidate hresult
    rw [hcandidate]
    rcases hunsettled hc' with hc | hsearching
    · exact hapart.contents hc ho
    · exact (hsearch hsearching ho).symm
  · intro s t hs ht
    rcases hheld s hs with hc | habsent
    · exact hapart.files s t hc ht
    · intro heq
      rw [heq, hother.held t ht] at habsent
      cases habsent

/-- An undisturbed step has the effect of its phase. -/
theorem advance_effect {root : Root} (h : Published log root.shared)
    (hknown : Known log root.shared c) (hclear : c.undisturbed root = true) (glob : VersionsGlob) :
    ∃ log', Effect log root.shared c log' (c.advance glob root.shared).1
      (c.advance glob root.shared).2 := by
  unfold Call.undisturbed at hclear
  cases hphase : c.phase with
  | searching => exact ⟨log, searching_effect h hknown hphase⟩
  | allocating attempts => exact ⟨log, allocating_effect h hknown hphase⟩
  | writing attempts s =>
    simp only [hphase, Option.isNone_iff_eq_none] at hclear
    exact ⟨log, writing_effect h hknown hphase hclear⟩
  | linking attempts s =>
    refine linking_effect h hknown hphase ?_
    rintro rfl
    simpa [hphase] using hclear
  | unlinking attempts s linked => exact ⟨log, unlinking_effect h hknown hphase⟩

theorem search_clear {root : Root} (hclear : c.undisturbed root = true)
    (hphase : c.phase = .searching) {q : ℕ} {other : Call} (hother : root.tasks.get q = some other)
    (hunsettled : other.phase.unsettled = true) :
    other.candidate.contentSha256 ≠ c.candidate.contentSha256 := by
  obtain ⟨entry, hentry, rfl⟩ := Option.map_eq_some_iff.mp hother
  have hall := hclear
  unfold Call.undisturbed at hall
  simp only [hphase, List.all_eq_true] at hall
  have := hall entry (List.mem_of_find?_eq_some hentry)
  simpa [hunsettled] using this

theorem promoting_respects : assertions.Respected promoting Undisturbed where
  start := by
    intro log root process request h hidle
    refine ⟨h.memory, fun q other _ hother => h.task q other hother, ?_, ?_⟩
    · intro c hc
      unfold promoting at hc
      simp only at hc
      cases hgate : validatePromotable request.result with
      | error e =>
        rw [hgate] at hc
        cases hc
      | ok u =>
        rw [hgate] at hc
        cases hc
        have hresult := (validatePromotable_iff request.result).mp hgate
        refine ⟨⟨hresult, ⟨log, List.prefix_refl log, h.memory.1⟩, ?_, ?_, ?_, ?_, rfl⟩, ?_⟩
        · intro hunsettled
          cases hunsettled
        · intro s hs
          cases hs
        · intro s hs
          cases hs
        · intro attempts s hs
          cases hs
        · intro q other _ _
          constructor
          · intro hunsettled
            cases hunsettled
          · intro s t hs
            cases hs
    · intro f hf
      unfold promoting at hf
      simp only at hf
      cases hgate : validatePromotable request.result with
      | ok u =>
        rw [hgate] at hf
        cases hf
      | error e =>
        rw [hgate] at hf
        cases hf
        refine Or.inr ⟨?_, _, rfl⟩
        rw [← Bool.not_eq_true, ← validatePromotable_iff, hgate]
        simp
  advance := by
    intro log root process glob c h hc hmeets
    have hclear : c.undisturbed root = true := hmeets c hc
    have hknown := h.task process c hc
    obtain ⟨log', heffect⟩ := advance_effect h.memory.1 hknown hclear glob
    refine ⟨log', heffect.grows, ⟨heffect.published, heffect.distinct hknown h.memory.2⟩, ?_, ?_,
      heffect.finished⟩
    · intro q other hq hother
      exact (h.task q other hother).survives heffect (h.apart process q c other hq.symm hc hother)
    · intro c' hc'
      refine ⟨(heffect.running c' hc').1, fun q other hq hother => ?_⟩
      have hrunning : Effect log root.shared c log' (promoting.advance glob c root.shared).1
          (.running c') := hc' ▸ heffect
      exact hrunning.apart (h.task q other hother) (h.apart process q c other hq.symm hc hother)
        fun hphase => search_clear hclear hphase hother

end Interleaving

/-! ## Exclusive and idempotent -/

/-- The steps that are left to a call, at most. -/
def Phase.remaining : Phase → ℕ
  | .searching => 4 * maxAllocationRetries + 1
  | .allocating attempts => 4 * attempts
  | .writing attempts _ => 4 * attempts + 3
  | .linking attempts _ => 4 * attempts + 2
  | .unlinking attempts _ _ => 4 * attempts + 1

/-- What a process ends is the call that it had. -/
def Ends (c : Call) (f : Finished) : Prop := f.result = c.result ∧ f.before = c.before

theorem Call.advance_running {glob : VersionsGlob} {c c' : Call} {d : VersionsDir}
    (h : (c.advance glob d).2 = .running c') : ∃ phase, c' = { c with phase := phase } ∧
      phase.remaining < c.phase.remaining := by
  unfold Call.advance at h
  cases hphase : c.phase with
  | searching =>
    simp only [hphase] at h
    cases hfind : findByContent glob d c.candidate.contentSha256 with
    | some existing =>
      rw [hfind] at h
      cases h
    | none =>
      rw [hfind] at h
      cases h
      exact ⟨_, rfl, Nat.lt_succ_self _⟩
  | allocating attempts =>
    simp only [hphase] at h
    cases attempts with
    | zero => cases h
    | succ attempts =>
      cases h
      exact ⟨_, rfl, Nat.lt_succ_self _⟩
  | writing attempts s =>
    simp only [hphase] at h
    cases h
    exact ⟨_, rfl, Nat.lt_succ_self _⟩
  | linking attempts s =>
    simp only [hphase] at h
    cases hlink : d.link (tempName s.universeVersion s) (.version s.universeVersion) with
    | ok linked =>
      rw [hlink] at h
      cases h
      exact ⟨_, rfl, Nat.lt_succ_self _⟩
    | error e =>
      rw [hlink] at h
      cases h
      exact ⟨_, rfl, Nat.lt_succ_self _⟩
  | unlinking attempts s linked =>
    simp only [hphase] at h
    cases linked with
    | ok u => cases h
    | error e =>
      cases e with
      | fileNotFound => cases h
      | fileExists =>
        cases h
        exact ⟨_, rfl, Nat.lt_succ_self _⟩

theorem Call.advance_finished {glob : VersionsGlob} {c : Call} {d : VersionsDir} {f : Finished}
    (h : (c.advance glob d).2 = .finished f) : Ends c f := by
  unfold Call.advance at h
  split at h
  · split at h
    · cases h
      exact ⟨rfl, rfl⟩
    · cases h
  · cases h
    exact ⟨rfl, rfl⟩
  · cases h
  · cases h
  · split at h
    · cases h
    · cases h
  · split at h
    · cases h
      exact ⟨rfl, rfl⟩
    · cases h
    · cases h
      exact ⟨rfl, rfl⟩

/-- What one expects of promotions, whatever their interleaving: what the calls returned, and the
    version files. -/
structure Exclusive (finished : List Finished) (d : VersionsDir) : Prop where
  returns : ∀ f ∈ finished, f.result.isPromotable = true →
    ∃ s, f.outcome = .ok s ∧ s.contentSha256 = f.result.candidate.contentSha256
  one_content : ∀ f ∈ finished, ∀ f' ∈ finished, ∀ s s', f.outcome = .ok s → f'.outcome = .ok s' →
    s.universeVersion = s'.universeVersion → s.content = s'.content
  one_version : ∀ v w s t, d.read (.version v) = some s → d.read (.version w) = some t →
    s.contentSha256 = t.contentSha256 → v = w
  later : ∀ f ∈ finished, ∀ s, f.outcome = .ok s →
    (∃ v e, f.before.read (.version v) = some e ∧ e.contentSha256 = s.contentSha256) ∨
      ∀ v, (f.before.read (.version v)).isSome → v < s.universeVersion
  complete : ∀ v s, d.read (.version v) = some s → s.universeVersion = v
  kept : ∀ f ∈ finished, ∀ s, f.outcome = .ok s → d.read (.version s.universeVersion) = some s

/-- What the calls of an interleaving returned, in order. -/
def finishedCalls (turns : List (Turn Request VersionsGlob)) : List Finished :=
  (outs promoting.step emptyRoot turns).filterMap fun out => out.map (·.2)

theorem exclusive_of_log {log : List UniverseSnapshot} {d : VersionsDir} (h : Published log d)
    (hdistinct : (log.map (·.contentSha256)).Nodup) {finished : List Finished}
    (hconcluded : ∀ f ∈ finished, Concluded log f) : Exclusive finished d := by
  have hok {f : Finished} (hf : f ∈ finished) {s : UniverseSnapshot} (hs : f.outcome = .ok s) :
      s ∈ log ∧ s.contentSha256 = f.result.candidate.contentSha256 ∧
        ((∃ v e, f.before.read (.version v) = some e ∧ e.contentSha256 = s.contentSha256) ∨
          ∀ v, (f.before.read (.version v)).isSome → v < s.universeVersion) := by
    rcases hconcluded f hf with ⟨_, t, ht, houtcome, hsha, hlater⟩ | ⟨_, e, houtcome⟩
    · rw [houtcome, Except.ok.injEq] at hs
      subst hs
      exact ⟨ht, hsha, hlater⟩
    · rw [houtcome] at hs
      cases hs
  refine ⟨?_, ?_, ?_, ?_, ?_, ?_⟩
  · intro f hf hresult
    rcases hconcluded f hf with ⟨_, s, _, houtcome, hsha, _⟩ | ⟨hrefused, _⟩
    · exact ⟨s, houtcome, hsha⟩
    · rw [hresult] at hrefused
      cases hrefused
  · intro f hf f' hf' s s' hs hs' hversion
    rw [h.version_inj (hok hf hs).1 (hok hf' hs').1 hversion]
  · intro v w s t hs ht hsha
    obtain ⟨hslog, rfl⟩ := (h.read_iff v s).mp hs
    obtain ⟨htlog, rfl⟩ := (h.read_iff w t).mp ht
    rw [List.inj_on_of_nodup_map hdistinct hslog htlog hsha]
  · intro f hf s hs
    exact (hok hf hs).2.2
  · intro v s hs
    exact ((h.read_iff v s).mp hs).2
  · intro f hf s hs
    exact (h.read_iff _ s).mpr ⟨(hok hf hs).1, rfl⟩

theorem hold_emptyRoot : assertions.Hold [] emptyRoot where
  memory := ⟨published_empty, List.nodup_nil⟩
  task := by
    intro p c hc
    cases hc
  apart := by
    intro p q c c' _ hc
    cases hc

/-- A call that is started ends within 258 steps of its process, whatever the others do. -/
theorem started_call_ends {root : Root} {process : ℕ} {request : Request}
    {later : List (Turn Request VersionsGlob)} (hidle : root.tasks.get process = none)
    (hresult : request.result.isPromotable = true)
    (hcount : 258 ≤ later.countP (Turn.advances process)) :
    ∃ f, some (process, f) ∈ outs promoting.step root (.start process request :: later) ∧
      f.result = request.result ∧ f.before = root.shared := by
  have hstart : promoting.step root (.start process request) =
      root.settle process root.shared
        (.running ⟨request.result, request.effectiveAt, root.shared, .searching⟩) := by
    have hgate := (validatePromotable_iff request.result).mpr hresult
    simp only [Program.step, hidle, promoting, hgate]
  have hget : (promoting.step root (.start process request)).1.tasks.get process =
      some ⟨request.result, request.effectiveAt, root.shared, .searching⟩ := by
    rw [hstart]
    exact Dict.get_set_self _ _ _
  have hrunning (glob : VersionsGlob) (c : Call) (d : VersionsDir) (c' : Call)
      (hc' : (promoting.advance glob c d).2 = .running c') :
      c'.phase.remaining < c.phase.remaining ∧ ∀ f, Ends c' f → Ends c f := by
    obtain ⟨phase, rfl, hless⟩ := Call.advance_running hc'
    exact ⟨hless, fun f hf => hf⟩
  have hfinished (glob : VersionsGlob) (c : Call) (d : VersionsDir) (f : Finished)
      (hf : (promoting.advance glob c d).2 = .finished f) : Ends c f := Call.advance_finished hf
  obtain ⟨f, hf, hends⟩ := finishes hrunning hfinished later hget
    (by simp only [Phase.remaining, maxAllocationRetries]; omega)
  rw [outs_cons]
  exact ⟨f, List.mem_cons_of_mem _ hf, hends⟩

/-- **Undisturbed promotions are exclusive and idempotent.**  In an interleaving whose steps are all
undisturbed every call that ended returned a snapshot with its hash, a version has one content and a
hash one version, and the version files are complete.  A call ends within 258 steps of its process. -/
theorem promotions_exclusive (turns : List (Turn Request VersionsGlob))
    (h : Along promoting.step Undisturbed emptyRoot turns) :
    Exclusive (finishedCalls turns) (run promoting.step emptyRoot turns).shared ∧
    ∀ started process request later, turns = started ++ .start process request :: later →
      (run promoting.step emptyRoot started).tasks.get process = none →
      request.result.isPromotable = true → 258 ≤ later.countP (Turn.advances process) →
      ∃ f ∈ finishedCalls turns, f.result = request.result ∧
        f.before = (run promoting.step emptyRoot started).shared := by
  constructor
  · obtain ⟨log, _, hroot, hresults⟩ := promoting_respects.run h hold_emptyRoot
    refine exclusive_of_log hroot.memory.1 hroot.memory.2 fun f hf => ?_
    obtain ⟨out, hout, hf⟩ := List.mem_filterMap.mp hf
    obtain ⟨⟨process, f'⟩, rfl, rfl⟩ := Option.map_eq_some_iff.mp hf
    exact hresults process f' hout
  · intro started process request later hturns hidle hresult hcount
    obtain ⟨f, hf, hends⟩ := started_call_ends hidle hresult hcount
    refine ⟨f, List.mem_filterMap.mpr ⟨some (process, f), ?_, rfl⟩, hends⟩
    rw [hturns, outs_append]
    exact List.mem_append_right _ hf

/-- Two processes promote the snapshots, with their steps in the given order. -/
def race (first second : UniverseSnapshot) (order : List ℕ) : List (Turn Request VersionsGlob) :=
  .start 0 ⟨⟨first, [], []⟩, 0⟩ :: .start 1 ⟨⟨second, [], []⟩, 1⟩ ::
    order.map fun process => .advance process Directory.entryOrder

/-- Different contents: both first try version 1. -/
theorem promotions_exclusive_sample :
    let turns := race unclassified classified [0, 1, 0, 1, 0, 1, 0, 1, 0, 1, 1, 1, 1, 1]
    Exclusive (finishedCalls turns) (run promoting.step emptyRoot turns).shared :=
  (promotions_exclusive _ (by decide +kernel)).1

/-- One content: both search before either has published it, and it gets two versions. -/
theorem equal_contents_get_two_versions :
    ¬ ∀ turns : List (Turn Request VersionsGlob),
      Exclusive (finishedCalls turns) (run promoting.step emptyRoot turns).shared := by
  intro h
  have hexclusive := h (race unclassified unclassified [0, 1, 0, 0, 0, 0, 1, 1, 1, 1])
  generalize hroot : (run promoting.step emptyRoot
    (race unclassified unclassified [0, 1, 0, 0, 0, 0, 1, 1, 1, 1])).shared = d at hexclusive
  have hshas : [1, 2].map (fun v => (d.read (.version v)).map (·.contentSha256)) =
      [some unclassified.contentSha256, some unclassified.contentSha256] := by
    rw [← hroot]
    decide +kernel
  simp only [List.map_cons, List.map_nil, List.cons.injEq, Option.map_eq_some_iff, and_true] at hshas
  obtain ⟨⟨s, hs, hssha⟩, t, ht, htsha⟩ := hshas
  have := hexclusive.one_version 1 2 s t hs ht (hssha.trans htsha.symm)
  omega

/-- They share a temporary file too: one of them unlinks it before the other has linked it. -/
example : (finishedCalls (race unclassified unclassified [0, 1, 0, 1, 0, 1, 0, 0, 1, 1])).map
    (fun f => f.outcome.toOption.isSome) = [true, false] := by decide +kernel

end ApexScan.Universe
