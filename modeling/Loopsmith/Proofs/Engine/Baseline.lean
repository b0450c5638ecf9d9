import Loopsmith.Proofs.Engine.Accounts
import Loopsmith.Proofs.Engine.BuildOnce
import Loopsmith.Proofs.Pipeline.Stages

/-!
# Calls that run no body

Most calls of a cold loop run no body: the loop has finished, the policy puts it off, or
something goes wrong on the way to a body.  The loop then goes on with the code it has, and the
next call must find the engine as if this one had not been made.

What may change depends on how far the call got.  `EndsAs` lists the endings by their causes, all
of which can be told from the state before the call, and `Ending.Leaves` says what each of them
leaves as it was.  That no ending is missing from the list is part of the main statement: the calls
that run nothing are the calls that end in one of these ways.
-/

namespace Loopsmith

/-! ## Endings -/

/-- The error is found before anything is built. -/
def SpecializationError.isEarly : SpecializationError → Bool
  | parameters _ => true
  | render _ => true
  | _ => false

theorem SpecializationError.OfBuild.not_isEarly {e : SpecializationError} (h : e.OfBuild) :
    e.isEarly = false := by
  cases h with
  | file => rfl
  | compile => rfl
  | link => rfl

/-- How a call ends that runs no body. -/
inductive Ending where
  | finished
  | deferred
  | failed (e : SpecializationError)

/-- The loop goes on, its parameters read as `ps`, and there is no body for them yet. -/
structure Bodiless (host : Host) (call : Call) (ps : Parameters) (s : State) : Prop where
  unfinished : call.condition ≠ 0
  parsed : Parameters.parse call.site.parameters = .ok ps
  missing : s.engine.cache.contains (call.site.keyOf host.hash ps) = false

/-- What a call without a body ends as, and why. -/
inductive EndsAs (host : Host) (call : Call) (s : State) : Ending → Prop
  | finished : call.condition = 0 → EndsAs host call s .finished
  | deferred (ps : Parameters) : Bodiless host call ps s →
      s.engine.settings.policy.admits (call.site.progress call.iteration) = false →
      EndsAs host call s .deferred
  | malformed (e : ParameterError) : call.condition ≠ 0 →
      Parameters.parse call.site.parameters = .error e →
      EndsAs host call s (.failed (.parameters e))
  | unrendered (ps : Parameters) (e : RenderError) : Bodiless host call ps s →
      s.engine.settings.policy.admits (call.site.progress call.iteration) = true →
      renderSource call.site.source ps = .error e →
      EndsAs host call s (.failed (.render e))
  | unbuilt (ps : Parameters) (rendered : String) (e : SpecializationError) :
      Bodiless host call ps s →
      s.engine.settings.policy.admits (call.site.progress call.iteration) = true →
      renderSource call.site.source ps = .ok rendered →
      (s.engine.pipeline.compileAndLink host rendered call.site.compiler s.machine).1 = .error e →
      EndsAs host call s (.failed e)

namespace Ending

/-- The counters after a call with this ending. -/
def count : Ending → EngineCounts → EngineCounts
  | finished, c => { c with invocations := c.invocations + 1, finished := c.finished + 1 }
  | deferred, c => { c with invocations := c.invocations + 1, deferred := c.deferred + 1 }
  | failed _, c => { c with invocations := c.invocations + 1, failed := c.failed + 1 }

/-- What a call with this ending leaves as it was.  A failure may have raised the counters of the
cache, and one of a build those of the pipeline; what the cache holds is the same after all of
them. -/
structure Leaves (ending : Ending) (s s' : State) : Prop where
  counts : s'.engine.counts = ending.count s.engine.counts
  entries : s'.engine.cache.entries = s.engine.cache.entries
  links : s'.engine.pipeline.counts.links = s.engine.pipeline.counts.links
  storeHits : s'.engine.pipeline.counts.storeHits = s.engine.pipeline.counts.storeHits
  cache : (∀ e, ending ≠ .failed e) → s'.engine.cache = s.engine.cache
  workshop : (∀ e, ending = .failed e → e.isEarly = true) → s'.workshop = s.workshop
  quiet : s.machine.Quiet s'.machine

/-- An ending that touches neither the cache nor what builds work on. -/
theorem leaves_of_untouched {ending : Ending} {s s' : State}
    (hcounts : s'.engine.counts = ending.count s.engine.counts)
    (hcache : s'.engine.cache = s.engine.cache) (hworkshop : s'.workshop = s.workshop)
    (hquiet : s.machine.Quiet s'.machine) : ending.Leaves s s' := by
  have hpipeline : s'.engine.pipeline = s.engine.pipeline := congrArg Prod.fst hworkshop
  refine ⟨hcounts, by rw [hcache], by rw [hpipeline], by rw [hpipeline], fun _ => hcache,
    fun _ => hworkshop, hquiet⟩

end Ending

section

variable {host : Host} {call : Call} {s : State}

theorem Bodiless.not_wanted {ps : Parameters} (h : Bodiless host call ps s)
    (hadmits : s.engine.settings.policy.admits (call.site.progress call.iteration) = false) :
    ¬ Wanted host call ps s := by
  simp [Wanted, h.missing, hadmits]

/-- **A build that fails leaves the cache with what it had.** -/
theorem Bodiless.leaves {ps : Parameters} (h : Bodiless host call ps s)
    (hfree : s.engine.busy = false)
    (hadmits : s.engine.settings.policy.admits (call.site.progress call.iteration) = true)
    {e : SpecializationError} {w : Pipeline × Machine}
    (hbuild : buildBody host call.site ps (s.engine.pipeline, s.machine) = (.error e, w))
    (hearly : e.isEarly = true → w = (s.engine.pipeline, s.machine)) :
    (Ending.failed e).Leaves s (specialize host call s).2 := by
  have hin : LetIn call s := ⟨h.unfinished, hfree⟩
  obtain ⟨r, s₁, hasks⟩ := exists_asks (s := s.claimed) h.parsed (.inr hadmits)
  have hquiet := quiet_buildBody host call.site ps (s.engine.pipeline, s.machine)
  have hattempted := attempted_buildBody host call.site ps (s.engine.pipeline, s.machine)
  rw [hbuild] at hquiet hattempted
  dsimp only at hquiet
  cases hasks.fetches with
  | hit b hb =>
      have hmissing := h.missing
      rw [Cache.contains_eq_isSome_get?] at hmissing
      have hsome : (s.engine.cache.get? (call.site.keyOf host.hash ps)).isSome = true := by
        rw [show s.engine.cache.get? _ = some b from hb]
        rfl
      rw [hsome] at hmissing
      cases hmissing
  | made b w' _ hmade => cases hbuild.symm.trans hmade
  | failed e' w' _ hfailed =>
      obtain ⟨rfl, rfl⟩ : e = e' ∧ w = w' := by
        have hsame := hbuild.symm.trans hfailed
        cases hsame
        exact ⟨rfl, rfl⟩
      rw [specialize_of_asks_error hin hasks]
      have hlinks : w.1.counts.links = s.engine.pipeline.counts.links ∧
          w.1.counts.storeHits = s.engine.pipeline.counts.storeHits := by
        generalize w.1.counts = counts at hattempted ⊢
        cases hattempted with
        | failed => exact ⟨rfl, rfl⟩
        | unstarted => exact ⟨rfl, rfl⟩
      refine ⟨rfl, rfl, hlinks.1, hlinks.2, fun hnot => absurd rfl (hnot e), ?_,
        (hquiet.report _).report _⟩
      intro hall
      rw [hearly (hall e rfl)]
      rfl

/-- **Each ending leaves alone what it should.** -/
theorem EndsAs.leaves {ending : Ending} (h : EndsAs host call s ending)
    (hfree : s.engine.busy = false) : ending.Leaves s (specialize host call s).2 := by
  cases h with
  | finished hc =>
      rw [specialize_of_not_letIn fun hin => hin.unfinished hc, turnAway, if_pos hc]
      exact Ending.leaves_of_untouched rfl rfl rfl (.refl _)
  | deferred ps hbodiless hadmits =>
      rw [specialize_of_not_wanted ⟨hbodiless.unfinished, hfree⟩ hbodiless.parsed
        (hbodiless.not_wanted hadmits)]
      exact Ending.leaves_of_untouched rfl rfl rfl ((Machine.Quiet.refl _).report _)
  | malformed e hc hparse =>
      rw [specialize_of_malformed ⟨hc, hfree⟩ host hparse]
      exact Ending.leaves_of_untouched rfl rfl rfl (State.quiet_fail _ _ _)
  | unrendered ps e hbodiless hadmits hrender =>
      refine hbodiless.leaves hfree hadmits (w := (s.engine.pipeline, s.machine)) ?_ fun _ => rfl
      simp only [buildBody, Body.withParameters, hrender]
  | unbuilt ps rendered e hbodiless hadmits hrender hlink =>
      have hlate := (Pipeline.ofBuild_of_compileAndLink hlink).not_isEarly
      rcases hr : s.engine.pipeline.compileAndLink host rendered call.site.compiler s.machine
        with ⟨r, w⟩
      rw [hr] at hlink
      obtain rfl : r = .error e := hlink
      refine hbodiless.leaves hfree hadmits (w := w) ?_ ?_
      · simp only [buildBody, Body.withParameters, hrender, Body.link, hr]
      · intro hearly
        rw [hlate] at hearly
        cases hearly

/-- A body that was asked for and not got was not there, and could not be built. -/
theorem exists_endsAs_of_obtainBody {ps : Parameters} {e : SpecializationError} {s₁ : State}
    (hin : LetIn call s) (hparse : Parameters.parse call.site.parameters = .ok ps)
    (hwanted : Wanted host call ps s)
    (ho : obtainBody host call.site ps (call.site.keyOf host.hash ps) s.claimed = (.error e, s₁)) :
    EndsAs host call s (.failed e) := by
  have hasks : Asks host call s.claimed ps (.error e) s₁ := ⟨hparse, hwanted, ho⟩
  cases hasks.fetches with
  | failed _ w hmissing hbuild =>
      have hcontains : s.engine.cache.contains (call.site.keyOf host.hash ps) = false := by
        rw [Cache.contains_eq_isSome_get?]
        rw [show s.engine.cache.get? _ = none from hmissing]
        rfl
      have hbodiless : Bodiless host call ps s := ⟨hin.unfinished, hparse, hcontains⟩
      have hadmits := hwanted.resolve_left (by rw [hcontains]; simp)
      cases hrender : renderSource call.site.source ps with
      | error e' =>
          simp only [buildBody, Body.withParameters, hrender] at hbuild
          cases hbuild
          exact .unrendered ps e' hbodiless hadmits hrender
      | ok rendered =>
          refine .unbuilt ps rendered e hbodiless hadmits hrender ?_
          simp only [buildBody, Body.withParameters, hrender, Body.link] at hbuild
          split at hbuild
          · cases hbuild
          · next hlink =>
              cases hbuild
              exact congrArg Prod.fst hlink

/-- A call that is not nested runs a linked body, or it ends in one of the ways listed. -/
theorem exists_endsAs {allowed : Move → Prop} {settings : Settings} {pipeline : Pipeline}
    {machine : Machine} (h : Reaches allowed (.fresh settings pipeline machine) s)
    (hfree : s.engine.busy = false)
    (hruns : (specialize host call s).2.machine.runs = s.machine.runs) :
    ∃ ending, EndsAs host call s ending := by
  have hcourse := course_specialize host call s
  revert hcourse hruns
  generalize specialize host call s = r
  intro hruns hcourse
  cases hcourse with
  | finished hc => exact ⟨_, .finished hc⟩
  | refused _ hbusy =>
      rw [hfree] at hbusy
      cases hbusy
  | malformed e hin hparse => exact ⟨_, .malformed e hin.unfinished hparse⟩
  | deferred ps hin hparse hwanted =>
      simp only [Wanted, not_or, Bool.not_eq_true] at hwanted
      exact ⟨_, .deferred ps ⟨hin.unfinished, hparse, hwanted.1⟩ hwanted.2⟩
  | unbuilt ps e s₁ hin hparse hwanted ho =>
      exact ⟨_, exists_endsAs_of_obtainBody hin hparse hwanted ho⟩
  | entered ps b s₁ henters =>
      obtain ⟨a, ha⟩ := h.linked_of_enters henters
      obtain ⟨⟨run, hran, -⟩, -⟩ := henters.ranOnce ha
      have hsame : s.machine.runs ++ [run] = s.machine.runs := hran.symm.trans hruns
      simp at hsame

end

/-- **Calls that run no body leave the engine intact.**  The calls that run nothing are those that
end as finished, deferred or failed for one of the causes of `EndsAs`.  A call that finished or was
put off moves its counter and nothing else; one that failed leaves the cache with the same bodies
and the same counts of their use, and if it failed before the build, nothing that builds work on
has changed. -/
theorem leaves_of_no_run {allowed : Move → Prop} {settings : Settings} {pipeline : Pipeline}
    {machine : Machine} {s : State} (h : Reaches allowed (.fresh settings pipeline machine) s)
    (hfree : s.engine.busy = false) (host : Host) (call : Call) :
    ((specialize host call s).2.machine.runs = s.machine.runs ↔
        ∃ ending, EndsAs host call s ending) ∧
      ∀ ending, EndsAs host call s ending → ending.Leaves s (specialize host call s).2 := by
  refine ⟨⟨exists_endsAs h hfree, ?_⟩, fun ending hends => hends.leaves hfree⟩
  rintro ⟨ending, hends⟩
  exact (hends.leaves hfree).quiet.runs

/-- A call that fails to compile, made of an engine that has built a body before. -/
theorem leaves_of_no_run_uncompiled :
    ∃ s call e, s.engine.cache.entries.map (·.2.accesses) = [1] ∧
      EndsAs Sample.host call s (.failed (.compile "fail-cc" (some 1) e)) ∧
      (specialize Sample.host call s).2.machine.runs = s.machine.runs ∧
      (Ending.failed (.compile "fail-cc" (some 1) e)).Leaves s
        (specialize Sample.host call s).2 := by
  let call : Call := { Sample.miscompiled with site := { Sample.miscompiled.site with
    parameters := "N:5" } }
  have hreaches : Reaches (fun _ => True) Sample.start Sample.served := .move _ .refl trivial
  have hserved : Sample.served.engine.cache.entries.map (·.2.accesses) = [1] ∧
      Sample.served.engine.cache.contains (call.site.keyOf Sample.host.hash ⟨[("N", "5")]⟩) = false ∧
      Sample.served.engine.settings.policy.admits (call.site.progress call.iteration) = true ∧
      (Sample.served.engine.pipeline.compileAndLink Sample.host "n=5" call.site.compiler
        Sample.served.machine).1 = .error (.compile "fail-cc" (some 1) Scripted.failureText) := by
    decide +kernel
  obtain ⟨haccesses, hmissing, hadmits, hfails⟩ := hserved
  have hends : EndsAs Sample.host call Sample.served
      (.failed (.compile "fail-cc" (some 1) Scripted.failureText)) :=
    .unbuilt ⟨[("N", "5")]⟩ "n=5" _ ⟨by decide, by decide +kernel, hmissing⟩ hadmits
      (by decide +kernel) hfails
  have hleaves := leaves_of_no_run hreaches (free_specialize rfl Sample.host _) Sample.host call
  exact ⟨Sample.served, call, Scripted.failureText, haccesses, hends, hleaves.1.2 ⟨_, hends⟩,
    hleaves.2 _ hends⟩

end Loopsmith
