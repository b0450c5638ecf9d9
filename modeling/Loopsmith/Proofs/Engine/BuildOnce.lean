import Loopsmith.Proofs.Engine.Moments
import Loopsmith.Proofs.Engine.Provenance

/-!
# A body is built once

A build is slow, so a key gets one, and from then on its body is what every call with that key
runs.  What a later call says about the compiler, how far its loop has got and what the policy
thinks of that no longer matter.  A build that fails is forgotten: the next call tries again from
the start, and nothing that was left behind by the failure is taken for a success.

The promise is about a whole history, in which the calls for many keys are mixed.  For one key it
has a simple shape: any number of failures, then at most one success, and nothing after it.  The
cache remembers exactly the success (`Recorded`), so what a call does depends on the history
through the cache alone, and the rest is about single calls: one that finds a body builds nothing,
and one that finds none builds once.
-/

namespace Loopsmith

/-! ## The builds of a key -/

/-- What came of the builds that were carried out for a key, in order. -/
def buildsOf (k : Key) (history : List Deed) : List (Except SpecializationError Body) :=
  ((history.flatMap Deed.builds).filter (·.1 = k)).map (·.2)

theorem buildsOf_append (k : Key) (history history' : List Deed) :
    buildsOf k (history ++ history') = buildsOf k history ++ buildsOf k history' := by
  simp [buildsOf]

/-- Nothing is built on the way but for the asking for a body. -/
theorem buildsOf_append_of_builds_eq_nil (k : Key) (history : List Deed) {d : Deed}
    (h : d.builds = []) : buildsOf k (history ++ [d]) = buildsOf k history := by
  simp [buildsOf, h]

theorem buildsOf_append_asking (k : Key) (history : List Deed) (host : Host) (call : Call)
    (ps : Parameters) (s : State) :
    buildsOf k (history ++ [.asking host call ps s]) = buildsOf k history ++
      if call.site.keyOf host.hash ps = k then
        s.engine.cache.creations (call.site.keyOf host.hash ps) (buildBody host call.site ps)
          (s.engine.pipeline, s.machine)
      else [] := by
  rw [buildsOf_append]
  congr 1
  split
  · next hk => simp [buildsOf, Deed.asking, Deed.builds, List.filter_map, hk, Function.comp_def]
  · next hk => simp [buildsOf, Deed.asking, Deed.builds, List.filter_map, hk, Function.comp_def]

/-- The builds of a key were failures up to the one that made the body in the cache, if there is
one, and that was the last. -/
def Recorded (k : Key) (history : List Deed) (c : Cache Key Body) : Prop :=
  ∃ failures : List SpecializationError,
    buildsOf k history = failures.map .error ++ (c.get? k).toList.map .ok

namespace Recorded

variable {k : Key} {history : List Deed} {c : Cache Key Body}

theorem ok_mem_buildsOf_iff (h : Recorded k history c) {b : Body} :
    .ok b ∈ buildsOf k history ↔ c.get? k = some b := by
  obtain ⟨failures, hbuilds⟩ := h
  rw [hbuilds]
  simp

/-- What a call that asks for a body builds is recorded too. -/
theorem asking {host : Host} {call : Call} {s s₁ : State} {ps : Parameters}
    {r : Except SpecializationError Body} (h : Recorded k history s.engine.cache)
    (hasks : Asks host call s ps r s₁) :
    Recorded k (history ++ [.asking host call ps s]) s₁.engine.cache := by
  obtain ⟨failures, hbuilds⟩ := h
  rw [Recorded, buildsOf_append_asking, hbuilds]
  cases hasks.fetches with
  | hit b hb =>
      refine ⟨failures, ?_⟩
      rw [Cache.creations_of_get?_eq_some hb, ite_self, List.append_nil, Cache.get?_touch]
  | made b w hb hbuild =>
      refine ⟨failures, ?_⟩
      rw [Cache.creations_of_get?_eq_none hb, hbuild]
      split
      · next hk =>
          subst hk
          rw [hb, Cache.get?_append _ _ _ _ hb]
          simp
      · next hk => rw [Cache.get?_append_of_ne _ _ _ (Ne.symm hk), List.append_nil]
  | failed e w hb hbuild =>
      rw [Cache.creations_of_get?_eq_none hb, hbuild]
      have hsame : Cache.get? { s.engine.cache with
            misses := s.engine.cache.misses + 1
            failures := s.engine.cache.failures + 1 } k = s.engine.cache.get? k := rfl
      rw [hsame]
      split
      · next hk =>
          subst hk
          refine ⟨failures ++ [e], ?_⟩
          rw [hb]
          simp
      · exact ⟨failures, List.append_nil _⟩

/-- **A step keeps the record.** -/
theorem step {m m' : Moment} {d : Deed} (h : Recorded k history m.state.engine.cache)
    (hstep : Step m d m') : Recorded k (history ++ [d]) m'.state.engine.cache := by
  -- a step that asks for nothing builds nothing and leaves the cache as it is
  have hidle (hd : d.builds = []) (hcache : m'.state.engine.cache = m.state.engine.cache) :
      Recorded k (history ++ [d]) m'.state.engine.cache := by
    rw [Recorded, buildsOf_append_of_builds_eq_nil k history hd, hcache]
    exact h
  cases hstep with
  | giveUp ps e s₁ hasks =>
      have hrecorded := h.asking hasks
      exact hrecorded
  | @miss s host call _ ps b s₁ hasks _ =>
      have hrecorded := h.asking hasks
      rw [← cache_obtained s host call ps] at hrecorded
      exact hrecorded
  | @enter s host call _ ps b a s₁ hasks _ =>
      have hrecorded := h.asking hasks
      rw [← cache_obtained s host call ps] at hrecorded
      exact hrecorded
  | leave a before answers =>
      refine hidle rfl ?_
      rw [State.engine_time]
      rfl
  | arrive => exact hidle rfl rfl
  | finish => exact hidle rfl rfl
  | refuse => exact hidle rfl rfl
  | claim => exact hidle rfl rfl
  | reject => exact hidle rfl rfl
  | defer => exact hidle rfl rfl
  | release => exact hidle rfl rfl
  | world => exact hidle rfl rfl

end Recorded

/-- **The cache has recorded the builds of every history.** -/
theorem Unfolds.recorded {settings : Settings} {pipeline : Pipeline} {machine : Machine}
    {history : List Deed} {m : Moment}
    (h : Unfolds ⟨.fresh settings pipeline machine, []⟩ history m) (k : Key) :
    Recorded k history m.state.engine.cache := by
  induction h with
  | refl => exact ⟨[], rfl⟩
  | step _ hstep ih => exact ih.step hstep

/-! ## What builds work on -/

/-- What builds work on and leave changed: the pipeline with its counters, the files, and the
number of the next intermediate files. -/
def State.workshop (s : State) : Pipeline × FileTree × Nat :=
  (s.engine.pipeline, s.machine.files, s.machine.nextStem)

theorem workshop_time (s : State) (label : String) : (s.time label).workshop = s.workshop := by
  unfold State.time
  split
  · rfl
  · rfl

theorem workshop_countObtained (call : Call) (hit : Bool) (s : State) :
    (countObtained call hit s).workshop = s.workshop := by
  unfold countObtained
  split
  · rfl
  · dsimp only
    rw [workshop_time]
    rfl

theorem workshop_runObtained (host : Host) (call : Call) (b : Body) (s : State) :
    (runObtained host turnAway call b s).2.workshop = s.workshop := by
  cases ha : b.artifact with
  | none =>
      simp only [runObtained, Body.run, ha]
      rfl
  | some a =>
      rw [runObtained_of_artifact ha, workshop_time, Artifact.run_eq_returned]
      rfl

/-- Of a call that asks for a body, only the asking works on anything. -/
theorem workshop_specialize {host : Host} {call : Call} {s s₁ : State} {ps : Parameters}
    {r : Except SpecializationError Body} (hin : LetIn call s)
    (h : Asks host call s.claimed ps r s₁) :
    (specialize host call s).2.workshop = s₁.workshop := by
  cases r with
  | error e =>
      rw [specialize_of_asks_error hin h]
      rfl
  | ok b =>
      have hrun := workshop_runObtained host call b (s.claimed.obtained host call ps s₁)
      rw [State.obtained, workshop_countObtained] at hrun
      rw [specialize_of_asks_ok hin h]
      exact hrun

/-! ## Calls for one key -/

/-- The call is answered by running the body once, and from then on the body is what the engine
has under the key. -/
def RunsBody (host : Host) (call : Call) (s : State) (k : Key) (b : Body) : Prop :=
  ∃ a, b.artifact = some a ∧ (specialize host call s).1 = 0 ∧
    s.machine.RanOnce host a.entry call.iteration call.pack (specialize host call s).2.machine ∧
    (specialize host call s).2.engine.cache.get? k = some b

/-- The call is answered with its condition, nothing is run, and the engine has no body under the
key. -/
def LeavesUnbuilt (host : Host) (call : Call) (s : State) (k : Key) : Prop :=
  (specialize host call s).1 = call.condition ∧
    s.machine.Quiet (specialize host call s).2.machine ∧
    (specialize host call s).2.engine.cache.get? k = none

theorem Asks.runsBody {host : Host} {call : Call} {s s₁ : State} {ps : Parameters} {b : Body}
    (h : Asks host call s.claimed ps (.ok b) s₁) (hin : LetIn call s) {a : Artifact}
    (ha : b.artifact = some a) : RunsBody host call s (call.site.keyOf host.hash ps) b := by
  have henters := h.enters hin
  have hran := henters.ranOnce ha
  have hget := henters.get?_eq
  rw [← cache_runObtained host call b] at hget
  rw [RunsBody, specialize_of_asks_ok hin h]
  exact ⟨a, ha, by rw [runObtained_of_artifact ha], hran, hget⟩

theorem Asks.leavesUnbuilt {host : Host} {call : Call} {s s₁ : State} {ps : Parameters}
    {e : SpecializationError} (h : Asks host call s.claimed ps (.error e) s₁)
    (hin : LetIn call s) : LeavesUnbuilt host call s (call.site.keyOf host.hash ps) := by
  have hquiet := quiet_obtainBody host call.site ps (call.site.keyOf host.hash ps) s.claimed
  rw [h.obtained] at hquiet
  rw [LeavesUnbuilt, specialize_of_asks_error hin h]
  refine ⟨rfl, hquiet.trans (s₁.quiet_fail call.site e), ?_⟩
  cases h.fetches with
  | failed _ w hmissing _ => exact hmissing

/-- **A body that is there is run, and nothing is built.** -/
theorem specialize_of_get?_eq_some {host : Host} {call : Call} {s : State} (hin : LetIn call s)
    {ps : Parameters} (hparse : Parameters.parse call.site.parameters = .ok ps) {b : Body}
    (hb : s.claimed.engine.cache.get? (call.site.keyOf host.hash ps) = some b) {a : Artifact}
    (ha : b.artifact = some a) :
    RunsBody host call s (call.site.keyOf host.hash ps) b ∧
      (specialize host call s).2.workshop = s.workshop ∧
      ∃ history, history.flatMap Deed.builds = [] ∧
        Unfolds ⟨s, []⟩ history ⟨(specialize host call s).2, []⟩ := by
  have hwanted : Wanted host call ps s.claimed := by
    refine .inl ?_
    rw [Cache.contains_eq_isSome_get?, hb]
    rfl
  obtain ⟨r, s₁, hasks⟩ := exists_asks hparse hwanted
  obtain ⟨history, hbuilds, hsteps⟩ := unfolds_asks (.outer host call) hin hasks
  have hworkshop := workshop_specialize hin hasks
  rw [Deed.asking, Cache.creations_of_get?_eq_some hb] at hbuilds
  cases hasks.fetches with
  | hit b' hb' =>
      obtain rfl : b = b' := Option.some.inj (hb.symm.trans hb')
      exact ⟨hasks.runsBody hin ha, hworkshop, history, hbuilds, hsteps⟩
  | made _ w hmissing _ => cases hb.symm.trans hmissing
  | failed _ w hmissing _ => cases hb.symm.trans hmissing

/-- **A body that is not there is built, once, if the policy lets it.** -/
theorem specialize_of_get?_eq_none {host : Host} {call : Call} {s : State} (hin : LetIn call s)
    {ps : Parameters} (hparse : Parameters.parse call.site.parameters = .ok ps)
    (hmissing : s.claimed.engine.cache.get? (call.site.keyOf host.hash ps) = none)
    (hadmits : s.engine.settings.policy.admits (call.site.progress call.iteration) = true) :
    ∃ built w, buildBody host call.site ps (s.engine.pipeline, s.machine) = (built, w) ∧
      (∃ history, history.flatMap Deed.builds = [(call.site.keyOf host.hash ps, built)] ∧
        Unfolds ⟨s, []⟩ history ⟨(specialize host call s).2, []⟩) ∧
      (specialize host call s).2.workshop = (w.1, w.2.files, w.2.nextStem) ∧
      (∀ b, built = .ok b → RunsBody host call s (call.site.keyOf host.hash ps) b) ∧
      (∀ e, built = .error e → LeavesUnbuilt host call s (call.site.keyOf host.hash ps)) := by
  obtain ⟨r, s₁, hasks⟩ := exists_asks hparse (.inr hadmits : Wanted host call ps s.claimed)
  obtain ⟨history, hbuilds, hsteps⟩ := unfolds_asks (.outer host call) hin hasks
  have hworkshop := workshop_specialize hin hasks
  rw [Deed.asking, Cache.creations_of_get?_eq_none hmissing] at hbuilds
  cases hasks.fetches with
  | hit _ hb => cases hmissing.symm.trans hb
  | made b w _ hbuild =>
      rw [hbuild] at hbuilds
      refine ⟨.ok b, w, hbuild, ⟨history, hbuilds, hsteps⟩, hworkshop, ?_, nofun⟩
      rintro _ ⟨rfl⟩
      obtain ⟨a, ha⟩ := linked_of_buildBody hbuild
      exact hasks.runsBody hin ha
  | failed e w _ hbuild =>
      rw [hbuild] at hbuilds
      exact ⟨.error e, w, hbuild, ⟨history, hbuilds, hsteps⟩, hworkshop, nofun,
        fun _ _ => hasks.leavesUnbuilt hin⟩

/-! ## Every history -/

/-- **A key is built once.**  For every key and every history of an engine, whatever its settings:

* the builds of the key are any number of failures and at most one success after them;
* once a build has succeeded, every call from outside for that key that has something left to do
  runs the body that was built, whatever else the call says; the pipeline, the files and the stem
  numbers stay as they are, and nothing is built on the way;
* until then, every such call that the policy lets build carries out one build, from the rendering
  on and in the state that the engine is in, however many have failed; the pipeline, the files and
  the stem numbers are left as that build leaves them; if it succeeds the body is run and kept,
  and if it fails the call is answered with its condition and nothing is kept. -/
theorem built_once_per_key {settings : Settings} {pipeline : Pipeline} {machine : Machine}
    {history : List Deed} {m : Moment}
    (h : Unfolds ⟨.fresh settings pipeline machine, []⟩ history m) (k : Key) :
    (∃ (failures : List SpecializationError) (successes : List Body),
      buildsOf k history = failures.map .error ++ successes.map .ok ∧ successes.length ≤ 1) ∧
    (∀ s : State, m = ⟨s, []⟩ → ∀ (host : Host) (call : Call), call.condition ≠ 0 →
      call.site.key? host.hash = .ok k →
      (∀ b, .ok b ∈ buildsOf k history →
        RunsBody host call s k b ∧ (specialize host call s).2.workshop = s.workshop ∧
        ∃ history', history'.flatMap Deed.builds = [] ∧
          Unfolds m history' ⟨(specialize host call s).2, []⟩) ∧
      ((∀ b, .ok b ∉ buildsOf k history) →
        s.engine.settings.policy.admits (call.site.progress call.iteration) = true →
        ∃ ps built w, Parameters.parse call.site.parameters = .ok ps ∧
          buildBody host call.site ps (s.engine.pipeline, s.machine) = (built, w) ∧
          (∃ history', history'.flatMap Deed.builds = [(k, built)] ∧
            Unfolds m history' ⟨(specialize host call s).2, []⟩) ∧
          (specialize host call s).2.workshop = (w.1, w.2.files, w.2.nextStem) ∧
          (∀ b, built = .ok b → RunsBody host call s k b) ∧
          (∀ e, built = .error e → LeavesUnbuilt host call s k))) := by
  have hrecorded := h.recorded k
  refine ⟨?_, ?_⟩
  · obtain ⟨failures, hbuilds⟩ := hrecorded
    exact ⟨failures, _, hbuilds, Option.length_toList_le⟩
  · rintro s rfl host call hc hkey
    obtain ⟨ps, hparse, rfl⟩ := key?_eq_ok_iff.1 hkey
    cases h.explained rfl with
    | between hserved =>
        have hin : LetIn call s := ⟨hc, hserved.free rfl⟩
        refine ⟨?_, ?_⟩
        · intro b hb
          have hget := hrecorded.ok_mem_buildsOf_iff.1 hb
          obtain ⟨a, ha⟩ := hserved.reaches.linked.of_get? hget
          exact specialize_of_get?_eq_some hin hparse hget ha
        · intro hnone hadmits
          have hmissing : s.engine.cache.get? (call.site.keyOf host.hash ps) = none :=
            Option.eq_none_iff_forall_ne_some.2 fun b hb =>
              hnone b (hrecorded.ok_mem_buildsOf_iff.2 hb)
          obtain ⟨built, w, hbuild⟩ := specialize_of_get?_eq_none hin hparse hmissing hadmits
          exact ⟨ps, built, w, hparse, hbuild⟩

/-- A build that fails is tried again by the next call.  When that has built the body, the first
call's compiler no longer matters: its call runs the body too. -/
theorem built_once_after_failure :
    ∃ history s e b, Unfolds ⟨Sample.start, []⟩ history ⟨s, []⟩ ∧
      buildsOf Sample.key history = [.error e, .ok b] ∧
      RunsBody Sample.host Sample.miscompiled s Sample.key b ∧
      (specialize Sample.host Sample.miscompiled s).2.workshop = s.workshop := by
  have hgoes : Sample.miscompiled.condition ≠ 0 := by decide
  have hfails : (specialize Sample.host Sample.miscompiled Sample.start).1 ≠ 0 := by decide +kernel
  obtain ⟨_, built, _, -, -, ⟨history, hbuilds, hsteps⟩, -, hok, -⟩ :=
    ((built_once_per_key (.refl : Unfolds ⟨Sample.start, []⟩ [] _) Sample.key).2 _ rfl Sample.host
      Sample.miscompiled hgoes rfl).2 nofun rfl
  cases built with
  | ok b =>
      obtain ⟨_, -, hzero, -⟩ := hok b rfl
      exact absurd hzero hfails
  | error e =>
      have hfailed : buildsOf Sample.key history = [.error e] := by simp [buildsOf, hbuilds]
      have hserved : (specialize Sample.host (Sample.call 0)
          (specialize Sample.host Sample.miscompiled Sample.start).2).1 ≠ 2 := by decide +kernel
      obtain ⟨_, built, _, -, -, ⟨history', hbuilds', hsteps'⟩, -, -, herror⟩ :=
        ((built_once_per_key hsteps Sample.key).2 _ rfl Sample.host (Sample.call 0) hgoes rfl).2
          (by simp [hfailed]) (by decide +kernel)
      cases built with
      | error e' => exact absurd (herror e' rfl).1 hserved
      | ok b =>
          have hboth : buildsOf Sample.key (history ++ history') = [.error e, .ok b] := by
            rw [buildsOf_append, hfailed]
            simp [buildsOf, hbuilds']
          have hsteps'' := hsteps.trans hsteps'
          obtain ⟨hruns, hworkshop, -⟩ :=
            ((built_once_per_key hsteps'' Sample.key).2 _ rfl Sample.host Sample.miscompiled hgoes
              rfl).1 b (by simp [hboth])
          exact ⟨_, _, e, b, hsteps'', hboth, hruns, hworkshop⟩

end Loopsmith
