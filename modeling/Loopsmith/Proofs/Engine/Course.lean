import Loopsmith.Engine.Specialize
import Loopsmith.Proofs.Cache
import Loopsmith.Proofs.Pipeline.Bodies

/-!
# The courses of a call

A call can take six courses.  Five of them answer it without a body: the loop had
finished, another call was being answered, the parameters could not be read, the policy
put the loop off, or the body could not be built.  On the sixth a body is obtained, from
the cache or by building it, and entered.

`Course` lists them, each with what has to hold for it and the answer and state it ends in,
and `course_specialize` says that every call takes one of them.  The sixth is divided at the
moment when the body is entered, because that is where a running body's own calls find the
engine: `Enters` describes the state just before, and `runObtained` does the rest.

From the list follow the three facts about single calls that later files build on: how
the cache can change (`all_specialize`), that nothing runs before a body is entered
(`Enters.quiet`), and what a body's run leaves behind (`Artifact.ranOnce_run`).
-/

namespace Loopsmith

/-- The key under which the body of a site is kept when its parameters read as `ps`. -/
abbrev LoopSite.keyOf (hash : TemplateHash) (site : LoopSite) (ps : Parameters) : Key :=
  Key.of hash site.name ps site.source

/-- The state in which a call that was let in is attempted. -/
def State.claimed (s : State) : State :=
  (countInvocation s).setBusy true

/-- A call that is let in: its loop goes on, and no other call is being answered. -/
structure LetIn (call : Call) (s : State) : Prop where
  unfinished : call.condition ≠ 0
  free : s.engine.busy = false

/-- A body that was found or that the policy lets be built. -/
def Wanted (host : Host) (call : Call) (ps : Parameters) (s : State) : Prop :=
  s.engine.cache.contains (call.site.keyOf host.hash ps) = true ∨
    s.engine.settings.policy.admits (call.site.progress call.iteration) = true

/-- The call has obtained a body, and `s'` is the state in which it is entered. -/
structure Enters (host : Host) (call : Call) (s : State) (ps : Parameters) (b : Body)
    (s' : State) : Prop where
  letIn : LetIn call s
  parsed : Parameters.parse call.site.parameters = .ok ps
  wanted : Wanted host call ps s
  obtained : (obtainBody host call.site ps (call.site.keyOf host.hash ps) s.claimed).1 = .ok b
  state : s' = countObtained call (s.engine.cache.contains (call.site.keyOf host.hash ps))
    (obtainBody host call.site ps (call.site.keyOf host.hash ps) s.claimed).2

/-- The courses that a call can take, with the answer and the state each ends in. -/
inductive Course (host : Host) (call : Call) (s : State) : Int32 × State → Prop
  | finished : call.condition = 0 → Course host call s (finishedCall (countInvocation s))
  | refused : call.condition ≠ 0 → s.engine.busy = true →
      Course host call s (refusedCall call (countInvocation s))
  | malformed (e : ParameterError) : LetIn call s →
      Parameters.parse call.site.parameters = .error e →
      Course host call s
        (call.condition, (s.claimed.fail call.site (.parameters e)).setBusy false)
  | deferred (ps : Parameters) : LetIn call s →
      Parameters.parse call.site.parameters = .ok ps → ¬ Wanted host call ps s →
      Course host call s
        (call.condition,
          ((s.claimed.count fun c => { c with deferred := c.deferred + 1 }).report
            (.deferred call.site.displayName
              (100 * call.site.progress call.iteration))).setBusy false)
  | unbuilt (ps : Parameters) (e : SpecializationError) (s₁ : State) : LetIn call s →
      Parameters.parse call.site.parameters = .ok ps → Wanted host call ps s →
      obtainBody host call.site ps (call.site.keyOf host.hash ps) s.claimed = (.error e, s₁) →
      Course host call s (call.condition, (s₁.fail call.site e).setBusy false)
  | entered (ps : Parameters) (b : Body) (s₁ : State) : Enters host call s ps b s₁ →
      Course host call s
        ((runObtained host turnAway call b s₁).1,
          (runObtained host turnAway call b s₁).2.setBusy false)

/-- **Every call takes one of the six courses.** -/
theorem course_specialize (host : Host) (call : Call) (s : State) :
    Course host call s (specialize host call s) := by
  unfold specialize answerWith
  dsimp only
  split
  · next h => exact .finished h
  · next hc =>
      split
      · next hb => exact .refused hc hb
      · next hb =>
          have hin : LetIn call s := ⟨hc, by simpa [countInvocation, State.count] using hb⟩
          unfold attempt
          cases hp : Parameters.parse call.site.parameters with
          | error e => exact .malformed e hin hp
          | ok ps =>
              dsimp only
              unfold serve
              dsimp only
              split
              · next hw =>
                  refine .deferred ps hin hp ?_
                  simpa [Wanted, countInvocation, State.count, State.setBusy] using hw
              · next hw =>
                  have hwant : Wanted host call ps s := by
                    refine Decidable.or_iff_not_imp_left.2 ?_
                    simpa [countInvocation, State.count, State.setBusy] using hw
                  split
                  · next e s₁ ho => exact .unbuilt ps e s₁ hin hp hwant ho
                  · next b s₁ ho =>
                      have ho' : obtainBody host call.site ps (call.site.keyOf host.hash ps)
                          s.claimed = (.ok b, s₁) := ho
                      exact .entered ps b _ ⟨hin, hp, hwant, by rw [ho'], by rw [ho']; rfl⟩

/-! ## Obtaining a body -/

/-- A body that was built is the rendering of its site, linked. -/
theorem exists_of_buildBody {host : Host} {site : LoopSite} {ps : Parameters}
    {w w' : Pipeline × Machine} {b : Body} (h : buildBody host site ps w = (.ok b, w')) :
    renderSource site.source ps = .ok b.rendered ∧ ∃ a, b.artifact = some a ∧
      w.1.compileAndLink host b.rendered site.compiler w.2 = (.ok a, w') := by
  unfold buildBody Body.withParameters at h
  cases hr : renderSource site.source ps with
  | error e => simp [hr] at h
  | ok rendered =>
      simp only [hr, Body.link] at h
      split at h
      · next a p m hl =>
          cases h
          exact ⟨rfl, a, rfl, hl⟩
      · cases h

theorem linked_of_buildBody {host : Host} {site : LoopSite} {ps : Parameters}
    {w w' : Pipeline × Machine} {b : Body} (h : buildBody host site ps w = (.ok b, w')) :
    ∃ a, b.artifact = some a := by
  obtain ⟨-, a, ha, -⟩ := exists_of_buildBody h
  exact ⟨a, ha⟩

theorem quiet_buildBody (host : Host) (site : LoopSite) (ps : Parameters)
    (w : Pipeline × Machine) : w.2.Quiet (buildBody host site ps w).2.2 := by
  unfold buildBody Body.withParameters
  cases hr : renderSource site.source ps with
  | error e => exact .refl _
  | ok rendered =>
      have h := Pipeline.quiet_compileAndLink w.1 host rendered site.compiler w.2
      simp only [Body.link]
      split
      · next hl => rw [hl] at h; exact h
      · next hl => rw [hl] at h; exact h

/-- Obtaining a body is a request to the cache. -/
theorem obtained_obtainBody (host : Host) (site : LoopSite) (ps : Parameters) (key : Key)
    (s : State) :
    s.engine.cache.Obtained key (buildBody host site ps) (s.engine.pipeline, s.machine)
      ((obtainBody host site ps key s).1, (obtainBody host site ps key s).2.engine.cache,
        (obtainBody host site ps key s).2.engine.pipeline,
        (obtainBody host site ps key s).2.machine) :=
  s.engine.cache.obtained_getOrCreate key (buildBody host site ps) _

theorem quiet_obtainBody (host : Host) (site : LoopSite) (ps : Parameters) (key : Key)
    (s : State) : s.machine.Quiet (obtainBody host site ps key s).2.machine :=
  (obtained_obtainBody host site ps key s).rel
    (R := fun w w' => w.2.Quiet w'.2) (.refl _) (quiet_buildBody host site ps _)

theorem obtainBody_sameTools {host host' : Host} (h : host.SameTools host') (site : LoopSite)
    (ps : Parameters) (key : Key) (s : State) :
    obtainBody host site ps key s = obtainBody host' site ps key s := by
  have hbuild : buildBody host site ps = buildBody host' site ps := by
    funext w
    simp only [buildBody, Body.link, Pipeline.compileAndLink_sameTools h]
  simp only [obtainBody, hbuild]

/-! ## What a running body leaves behind -/

/-- Between the two machines one body ran: the one at `entry`, entered once, with this
iteration and this pack and the memory as it was. -/
structure Machine.RanOnce (host : Host) (entry : EntryPoint) (iteration : Int64) (pack : Pack)
    (m m' : Machine) : Prop where
  runs : ∃ r : BodyRun, m'.runs = m.runs ++ [r] ∧ r.entry = entry ∧ r.iteration = iteration ∧
    r.pack = pack ∧ r.before = m.memory ∧ r.status = (host.enter entry iteration pack m.memory).1
  memory : m'.memory = (host.enter entry iteration pack m.memory).2

/-- The counters after a body has made calls, so many of them with nothing left to do. -/
def EngineCounts.turnedAway (c : EngineCounts) (calls : List Call) : EngineCounts :=
  { c with
    invocations := c.invocations + calls.length
    finished := c.finished + calls.countP (·.condition == 0)
    reentrant := c.reentrant + calls.countP (·.condition != 0) }

/-- The calls that a running body makes are counted, and nothing else happens. -/
theorem answerAll_turnAway (calls : List Call) (s : State) :
    (answerAll turnAway calls s).2 = s.count (·.turnedAway calls) := by
  induction calls generalizing s with
  | nil => rfl
  | cons c cs ih =>
      rw [answerAll]
      dsimp only
      rw [ih]
      unfold turnAway
      by_cases hc : c.condition = 0
      · simp [hc, finishedCall, countInvocation, State.count, EngineCounts.turnedAway]
        omega
      · simp [hc, refusedCall, countInvocation, State.count, EngineCounts.turnedAway]
        omega

theorem State.quiet_time (s : State) (label : String) : s.machine.Quiet (s.time label).machine := by
  unfold State.time
  split
  · exact (Machine.Quiet.refl _).timing label
  · exact .refl _

theorem State.engine_time (s : State) (label : String) : (s.time label).engine = s.engine := by
  unfold State.time
  split
  · rfl
  · rfl

theorem Machine.Quiet.ranOnce {m m' m'' : Machine} (h : m.Quiet m') {host : Host}
    {entry : EntryPoint} {iteration : Int64} {pack : Pack}
    (hr : Machine.RanOnce host entry iteration pack m' m'') :
    Machine.RanOnce host entry iteration pack m m'' := by
  obtain ⟨hruns, hmemory⟩ := hr
  rw [h.runs, h.memory] at hruns
  rw [h.memory] at hmemory
  exact ⟨hruns, hmemory⟩

theorem Machine.RanOnce.quiet {m m' m'' : Machine} {host : Host} {entry : EntryPoint}
    {iteration : Int64} {pack : Pack} (hr : Machine.RanOnce host entry iteration pack m m')
    (h : m'.Quiet m'') : Machine.RanOnce host entry iteration pack m m'' :=
  ⟨by rw [h.runs]; exact hr.runs, h.memory.trans hr.memory⟩

/-- A linked body is entered once, and the calls it makes on the way run nothing. -/
theorem Artifact.ranOnce_run (a : Artifact) (host : Host) (iteration : Int64) (pack : Pack)
    (s : State) :
    s.machine.RanOnce host a.entry iteration pack (a.run host turnAway iteration pack s).2.machine := by
  unfold Artifact.run
  dsimp only
  rw [answerAll_turnAway]
  refine ⟨⟨_, Machine.runs_note_run _ _, rfl, rfl, rfl, rfl, rfl⟩, rfl⟩

theorem Artifact.engine_run (a : Artifact) (host : Host) (iteration : Int64) (pack : Pack)
    (s : State) :
    (a.run host turnAway iteration pack s).2.engine =
      (s.count (·.turnedAway (host.calls a.entry iteration pack))).engine := by
  unfold Artifact.run
  dsimp only
  rw [answerAll_turnAway]

/-- Running a linked body that was obtained for a call ends in the answer zero. -/
theorem runObtained_of_artifact {b : Body} {a : Artifact} (h : b.artifact = some a) (host : Host)
    (call : Call) (s : State) :
    runObtained host turnAway call b s =
      (0, (a.run host turnAway call.iteration call.pack s).2.time "DynFunction") := by
  simp only [runObtained, Body.run, h]

/-! ## Before a body is entered -/

theorem State.quiet_fail (s : State) (site : LoopSite) (e : SpecializationError) :
    s.machine.Quiet (s.fail site e).machine :=
  ((Machine.Quiet.refl _).report _).report _

theorem quiet_countObtained (call : Call) (hit : Bool) (s : State) :
    s.machine.Quiet (countObtained call hit s).machine := by
  unfold countObtained
  split
  · exact .refl _
  · refine Machine.Quiet.trans ?_ (State.quiet_time _ _)
    exact (Machine.Quiet.refl _).report _

theorem cache_countObtained (call : Call) (hit : Bool) (s : State) :
    (countObtained call hit s).engine.cache = s.engine.cache := by
  unfold countObtained
  split
  · rfl
  · dsimp only
    rw [State.engine_time]
    rfl

theorem counts_countObtained (call : Call) (hit : Bool) (s : State) :
    (countObtained call hit s).engine.counts =
      if hit then { s.engine.counts with cacheHits := s.engine.counts.cacheHits + 1 }
      else { s.engine.counts with specialized := s.engine.counts.specialized + 1 } := by
  unfold countObtained
  split
  · rfl
  · dsimp only
    rw [State.engine_time]
    rfl

namespace Enters

variable {host : Host} {call : Call} {s s' : State} {ps : Parameters} {b : Body}

theorem quiet (h : Enters host call s ps b s') : s.machine.Quiet s'.machine := by
  rw [h.state]
  exact (quiet_obtainBody host call.site ps _ s.claimed).trans (quiet_countObtained _ _ _)

theorem cache_eq (h : Enters host call s ps b s') :
    s'.engine.cache =
      (obtainBody host call.site ps (call.site.keyOf host.hash ps) s.claimed).2.engine.cache := by
  rw [h.state, cache_countObtained]

/-- The body that is entered is the one in the cache. -/
theorem get?_eq (h : Enters host call s ps b s') :
    s'.engine.cache.get? (call.site.keyOf host.hash ps) = some b := by
  rw [h.cache_eq]
  exact (obtained_obtainBody host call.site ps _ s.claimed).get?_eq h.obtained

/-- A linked body that is entered runs once, counted from before the call. -/
theorem ranOnce (h : Enters host call s ps b s') {a : Artifact} (ha : b.artifact = some a) :
    s.machine.RanOnce host a.entry call.iteration call.pack
      (runObtained host turnAway call b s').2.machine := by
  rw [runObtained_of_artifact ha]
  exact (h.quiet.ranOnce (a.ranOnce_run host call.iteration call.pack s')).quiet
    (State.quiet_time _ _)

/-- A body that was in the cache already is the one that is entered. -/
theorem get?_eq_of_contains (h : Enters host call s ps b s')
    (hc : s.engine.cache.contains (call.site.keyOf host.hash ps) = true) :
    s.engine.cache.get? (call.site.keyOf host.hash ps) = some b := by
  rw [Cache.contains_eq_isSome_get?] at hc
  obtain ⟨b', hb'⟩ := Option.isSome_iff_exists.1 hc
  have hobtained := (obtained_obtainBody host call.site ps _ s.claimed).eq_ok_of_get? hb'
  rw [h.obtained] at hobtained
  rw [hb', Except.ok.inj hobtained]

/-- The call is counted as a hit or as a body built, besides being counted at all. -/
theorem counts_eq (h : Enters host call s ps b s') :
    s'.engine.counts =
      if s.engine.cache.contains (call.site.keyOf host.hash ps) then
        { s.claimed.engine.counts with cacheHits := s.engine.counts.cacheHits + 1 }
      else { s.claimed.engine.counts with specialized := s.engine.counts.specialized + 1 } := by
  rw [h.state, counts_countObtained]
  rfl

end Enters

/-- After a body has run, its own calls are counted too. -/
theorem counts_runObtained {b : Body} {a : Artifact} (h : b.artifact = some a) (host : Host)
    (call : Call) (s : State) :
    (runObtained host turnAway call b s).2.engine.counts =
      s.engine.counts.turnedAway (host.calls a.entry call.iteration call.pack) := by
  rw [runObtained_of_artifact h]
  dsimp only
  rw [State.engine_time, Artifact.engine_run]
  rfl

/-! ## How a call changes the cache -/

/-- Obtaining a body keeps a property of all cached bodies, if a new one has it. -/
theorem all_obtainBody {P : Key → Body → Prop} (host : Host) (site : LoopSite) (ps : Parameters)
    (key : Key) {s : State} (h : s.engine.cache.All P)
    (hbuilt : ∀ b w, buildBody host site ps (s.engine.pipeline, s.machine) = (.ok b, w) → P key b) :
    (obtainBody host site ps key s).2.engine.cache.All P :=
  h.obtained (obtained_obtainBody host site ps key s) hbuilt

theorem Enters.all {P : Key → Body → Prop} {host : Host} {call : Call} {s s' : State}
    {ps : Parameters} {b : Body} (he : Enters host call s ps b s') (h : s.engine.cache.All P)
    (hbuilt : ∀ b w, buildBody host call.site ps (s.engine.pipeline, s.machine) = (.ok b, w) →
      P (call.site.keyOf host.hash ps) b) : s'.engine.cache.All P := by
  rw [he.cache_eq]
  exact all_obtainBody host call.site ps _ (s := s.claimed) h hbuilt

/-- The cache after a body has run is the cache in which it was entered. -/
theorem cache_runObtained (host : Host) (call : Call) (b : Body) (s : State) :
    (runObtained host turnAway call b s).2.engine.cache = s.engine.cache := by
  cases ha : b.artifact with
  | none => simp only [runObtained, Body.run, ha]; rfl
  | some a =>
      rw [runObtained_of_artifact ha]
      dsimp only
      rw [State.engine_time, Artifact.engine_run]
      rfl

/-- **A call keeps a property of all cached bodies, if a body that it builds has it.** -/
theorem all_specialize {P : Key → Body → Prop} {host : Host} {call : Call} {s : State}
    (h : s.engine.cache.All P)
    (hbuilt : ∀ ps b w, Parameters.parse call.site.parameters = .ok ps →
      buildBody host call.site ps (s.engine.pipeline, s.machine) = (.ok b, w) →
      P (call.site.keyOf host.hash ps) b) :
    (specialize host call s).2.engine.cache.All P := by
  have hcourse := course_specialize host call s
  revert hcourse
  generalize specialize host call s = r
  intro hcourse
  cases hcourse with
  | finished => exact h
  | refused => exact h
  | malformed => exact h
  | deferred => exact h
  | unbuilt ps e s₁ _ hp _ ho =>
      have hall := all_obtainBody host call.site ps (call.site.keyOf host.hash ps)
        (s := s.claimed) h fun b w => hbuilt ps b w hp
      rw [ho] at hall
      exact hall
  | entered ps b s₁ he =>
      have hall := he.all h fun b w => hbuilt ps b w he.parsed
      rw [← cache_runObtained host call b s₁] at hall
      exact hall

end Loopsmith
