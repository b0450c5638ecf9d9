import Loopsmith.Proofs.Engine.Reach

/-!
# From moment to moment

`specialize` says what a call comes to.  Some promises are about what happens on the way: that
the guard is held without a gap, that the counters agree while a body runs, that a body is built
once.  A guard that is dropped for a while and taken again does not show in an answer, so these
promises need the moments in between.

A `Moment` is a state together with the calls that are being answered in it, the innermost
first, each with the `Stage` that it has got to.  `Step` has one rule for each thing that can
happen next, and names what was done (`Deed`); `Unfolds` is any number of steps, with the deeds as
their history.  A running body's calls come in by the same rule as all others, and no rule says
that they are turned away: that they are is something to be proved.

## What ties the steps to the answers

Whatever call comes next, from outside or from a running body, its steps lead to the answer and
the state that `specialize` gives (`unfolds_specialize`).  And the steps lead nowhere else: a moment
between calls is a state that calls of `specialize` lead to one after another (`Served`).  The
second part is an invariant, `Explained`, which lists the shapes that a moment can have; there are
six, and in none of them has more than one call got past the guard.
-/

namespace Loopsmith

/-! ## Moments -/

/-- How far the answering of a call has got. -/
inductive Stage where
  /-- The call has been counted. -/
  | arrived
  /-- The call has taken the guard. -/
  | claimed
  /-- The body has been entered with the memory `before`.  The calls that it has made so far got
  the `answers`, and those that are `pending` it has yet to make. -/
  | running (a : Artifact) (before : Memory) (answers : List Int32) (pending : List Call)
  /-- The guard is about to be freed and the status returned. -/
  | leaving (status : Int32)

/-- A call that is being answered. -/
structure Frame where
  host : Host
  call : Call
  stage : Stage

structure Moment where
  state : State
  /-- The calls that are being answered, the innermost first. -/
  frames : List Frame

/-- What is done in a step. -/
inductive Deed where
  | arrived
  | finished
  | refused
  | claimed
  | malformed
  | deferred
  /-- The cache was asked for the body of a key, and these builds were carried out for it. -/
  | asked (key : Key) (builds : List (Except SpecializationError Body))
  | ran
  | released
  /-- The machine changed by other hands. -/
  | world

/-- The builds that were carried out, each with its key. -/
def Deed.builds : Deed → List (Key × Except SpecializationError Body)
  | asked key builds => builds.map (key, ·)
  | _ => []

/-- The call can come next: any call can while none is being answered, and otherwise the one that
the running body makes next. -/
inductive Due : Host → Call → List Frame → Prop
  | outer (host : Host) (call : Call) : Due host call []
  | nested {host : Host} {outer call : Call} {a : Artifact} {before : Memory}
      {answers : List Int32} {pending : List Call} {fs : List Frame} :
      Due host call (⟨host, outer, .running a before answers (call :: pending)⟩ :: fs)

/-- Returns a status to the body that made the call, if one did. -/
def deliver (status : Int32) : List Frame → List Frame
  | ⟨host, call, .running a before answers (_ :: pending)⟩ :: fs =>
      ⟨host, call, .running a before (answers ++ [status]) pending⟩ :: fs
  | fs => fs

/-- The state after a body has made its calls and returned. -/
def Artifact.returned (a : Artifact) (host : Host) (call : Call) (before : Memory)
    (answers : List Int32) (s : State) : State :=
  let (status, memory) := host.enter a.entry call.iteration call.pack s.machine.memory
  let ran : BodyRun :=
    ⟨a.entry, call.iteration, call.pack, before, answers, s.engine.tally, status⟩
  { s with machine := Machine.note { s.machine with memory } (.run ran) }

/-! ## Steps -/

/-- The call asks for the body of its site, and `r` and the state `s₁` are what it gets. -/
structure Asks (host : Host) (call : Call) (s : State) (ps : Parameters)
    (r : Except SpecializationError Body) (s₁ : State) : Prop where
  parsed : Parameters.parse call.site.parameters = .ok ps
  wanted : Wanted host call ps s
  obtained : obtainBody host call.site ps (call.site.keyOf host.hash ps) s = (r, s₁)

theorem exists_asks {host : Host} {call : Call} {s : State} {ps : Parameters}
    (hparse : Parameters.parse call.site.parameters = .ok ps) (hwanted : Wanted host call ps s) :
    ∃ r s₁, Asks host call s ps r s₁ :=
  ⟨_, _, hparse, hwanted, rfl⟩

/-- Asking for the body of a site in some state. -/
def Deed.asking (host : Host) (call : Call) (ps : Parameters) (s : State) : Deed :=
  .asked (call.site.keyOf host.hash ps)
    (s.engine.cache.creations (call.site.keyOf host.hash ps) (buildBody host call.site ps)
      (s.engine.pipeline, s.machine))

/-- The state `s₁` in which a body was obtained, once it has been counted. -/
def State.obtained (s : State) (host : Host) (call : Call) (ps : Parameters) (s₁ : State) : State :=
  countObtained call (s.engine.cache.contains (call.site.keyOf host.hash ps)) s₁

/-- What can happen next, and what is done in it. -/
inductive Step : Moment → Deed → Moment → Prop
  | arrive {s : State} {host : Host} {call : Call} {fs : List Frame} : Due host call fs →
      Step ⟨s, fs⟩ .arrived ⟨countInvocation s, ⟨host, call, .arrived⟩ :: fs⟩
  | finish {s : State} {host : Host} {call : Call} {fs : List Frame} : call.condition = 0 →
      Step ⟨s, ⟨host, call, .arrived⟩ :: fs⟩ .finished
        ⟨(finishedCall s).2, deliver (finishedCall s).1 fs⟩
  | refuse {s : State} {host : Host} {call : Call} {fs : List Frame} : call.condition ≠ 0 →
      s.engine.busy = true →
      Step ⟨s, ⟨host, call, .arrived⟩ :: fs⟩ .refused
        ⟨(refusedCall call s).2, deliver (refusedCall call s).1 fs⟩
  | claim {s : State} {host : Host} {call : Call} {fs : List Frame} : call.condition ≠ 0 →
      s.engine.busy = false →
      Step ⟨s, ⟨host, call, .arrived⟩ :: fs⟩ .claimed
        ⟨s.setBusy true, ⟨host, call, .claimed⟩ :: fs⟩
  | reject {s : State} {host : Host} {call : Call} {fs : List Frame} (e : ParameterError) :
      Parameters.parse call.site.parameters = .error e →
      Step ⟨s, ⟨host, call, .claimed⟩ :: fs⟩ .malformed
        ⟨s.fail call.site (.parameters e), ⟨host, call, .leaving call.condition⟩ :: fs⟩
  | defer {s : State} {host : Host} {call : Call} {fs : List Frame} (ps : Parameters) :
      Parameters.parse call.site.parameters = .ok ps → ¬ Wanted host call ps s →
      Step ⟨s, ⟨host, call, .claimed⟩ :: fs⟩ .deferred
        ⟨(s.count fun c => { c with deferred := c.deferred + 1 }).report
            (.deferred call.site.displayName (100 * call.site.progress call.iteration)),
          ⟨host, call, .leaving call.condition⟩ :: fs⟩
  | giveUp {s : State} {host : Host} {call : Call} {fs : List Frame} (ps : Parameters)
      (e : SpecializationError) (s₁ : State) : Asks host call s ps (.error e) s₁ →
      Step ⟨s, ⟨host, call, .claimed⟩ :: fs⟩ (.asking host call ps s)
        ⟨s₁.fail call.site e, ⟨host, call, .leaving call.condition⟩ :: fs⟩
  /-- A body that is not linked cannot be entered. -/
  | miss {s : State} {host : Host} {call : Call} {fs : List Frame} (ps : Parameters) (b : Body)
      (s₁ : State) : Asks host call s ps (.ok b) s₁ → b.artifact = none →
      Step ⟨s, ⟨host, call, .claimed⟩ :: fs⟩ (.asking host call ps s)
        ⟨(s.obtained host call ps s₁).fail call.site .notLinked,
          ⟨host, call, .leaving call.condition⟩ :: fs⟩
  | enter {s : State} {host : Host} {call : Call} {fs : List Frame} (ps : Parameters) (b : Body)
      (a : Artifact) (s₁ : State) : Asks host call s ps (.ok b) s₁ → b.artifact = some a →
      Step ⟨s, ⟨host, call, .claimed⟩ :: fs⟩ (.asking host call ps s)
        ⟨s.obtained host call ps s₁,
          ⟨host, call, .running a (s.obtained host call ps s₁).machine.memory []
            (host.calls a.entry call.iteration call.pack)⟩ :: fs⟩
  | leave {s : State} {host : Host} {call : Call} {fs : List Frame} (a : Artifact)
      (before : Memory) (answers : List Int32) :
      Step ⟨s, ⟨host, call, .running a before answers []⟩ :: fs⟩ .ran
        ⟨(a.returned host call before answers s).time "DynFunction",
          ⟨host, call, .leaving 0⟩ :: fs⟩
  | release {s : State} {host : Host} {call : Call} {fs : List Frame} (status : Int32) :
      Step ⟨s, ⟨host, call, .leaving status⟩ :: fs⟩ .released
        ⟨s.setBusy false, deliver status fs⟩
  | world {s : State} (machine : Machine) : Step ⟨s, []⟩ .world ⟨{ s with machine }, []⟩

/-- What a call that asks for a body can get: the one that is there, a new one, or none. -/
inductive Fetches (host : Host) (call : Call) (s : State) (ps : Parameters) :
    Except SpecializationError Body → State → Prop
  | hit (b : Body) : s.engine.cache.get? (call.site.keyOf host.hash ps) = some b →
      Fetches host call s ps (.ok b)
        { s with engine := { s.engine with cache := { s.engine.cache with
          entries := Cache.touch (call.site.keyOf host.hash ps) s.engine.cache.entries
          hits := s.engine.cache.hits + 1 } } }
  | made (b : Body) (w : Pipeline × Machine) :
      s.engine.cache.get? (call.site.keyOf host.hash ps) = none →
      buildBody host call.site ps (s.engine.pipeline, s.machine) = (.ok b, w) →
      Fetches host call s ps (.ok b)
        { engine := { s.engine with
            pipeline := w.1
            cache := { s.engine.cache with
              entries := s.engine.cache.entries ++ [(call.site.keyOf host.hash ps, ⟨b, 1⟩)]
              misses := s.engine.cache.misses + 1 } }
          machine := w.2 }
  | failed (e : SpecializationError) (w : Pipeline × Machine) :
      s.engine.cache.get? (call.site.keyOf host.hash ps) = none →
      buildBody host call.site ps (s.engine.pipeline, s.machine) = (.error e, w) →
      Fetches host call s ps (.error e)
        { engine := { s.engine with
            pipeline := w.1
            cache := { s.engine.cache with
              misses := s.engine.cache.misses + 1
              failures := s.engine.cache.failures + 1 } }
          machine := w.2 }

theorem Asks.fetches {host : Host} {call : Call} {s s₁ : State} {ps : Parameters}
    {r : Except SpecializationError Body} (h : Asks host call s ps r s₁) :
    Fetches host call s ps r s₁ := by
  have hobtained := s.engine.cache.obtained_getOrCreate (call.site.keyOf host.hash ps)
    (buildBody host call.site ps) (s.engine.pipeline, s.machine)
  have heq := h.obtained
  unfold obtainBody at heq
  revert hobtained heq
  generalize s.engine.cache.getOrCreate (call.site.keyOf host.hash ps) (buildBody host call.site ps)
    (s.engine.pipeline, s.machine) = t
  intro hobtained heq
  cases hobtained with
  | hit b hb =>
      cases heq
      exact .hit b hb
  | made b w hb hbuild =>
      cases heq
      exact .made b w hb hbuild
  | failed e w hb hbuild =>
      cases heq
      exact .failed e w hb hbuild

/-- Any number of steps, with what is done in them. -/
inductive Unfolds (start : Moment) : List Deed → Moment → Prop
  | refl : Unfolds start [] start
  | step {history : List Deed} {m m' : Moment} {d : Deed} : Unfolds start history m →
      Step m d m' → Unfolds start (history ++ [d]) m'

theorem Unfolds.single {m m' : Moment} {d : Deed} (h : Step m d m') : Unfolds m [d] m' :=
  Unfolds.refl.step h

theorem Unfolds.trans {m m' m'' : Moment} {history history' : List Deed}
    (h : Unfolds m history m') (h' : Unfolds m' history' m'') :
    Unfolds m (history ++ history') m'' := by
  induction h' with
  | refl => rwa [List.append_nil]
  | step _ hstep ih =>
      rw [← List.append_assoc]
      exact ih.step hstep

/-! ## Calls are lived through to their answers -/

theorem answer_turnAway (call : Call) (s : State) : (turnAway call s).1 = call.condition := by
  unfold turnAway
  split
  · next h => exact h.symm
  · rfl

/-- What the calls of a running body are told, and what becomes of the state. -/
theorem answerAll_turnAway_eq (calls : List Call) (s : State) :
    answerAll turnAway calls s =
      (calls.map (·.condition), s.count (·.turnedAway calls)) := by
  refine Prod.ext ?_ (answerAll_turnAway calls s)
  induction calls generalizing s with
  | nil => rfl
  | cons c cs ih =>
      have hrest := ih (turnAway c s).2
      rw [answerAll]
      dsimp only at hrest ⊢
      rw [hrest, answer_turnAway, List.map_cons]

theorem turnAway_eq (call : Call) (s : State) :
    turnAway call s = (call.condition, s.count (·.turnedAway [call])) :=
  Prod.ext (answer_turnAway call s) (answerAll_turnAway [call] s)

theorem EngineCounts.turnedAway_append (c : EngineCounts) (calls calls' : List Call) :
    c.turnedAway (calls ++ calls') = (c.turnedAway calls).turnedAway calls' := by
  simp [turnedAway, Nat.add_assoc]

/-- A call that cannot be let in is answered at once. -/
theorem unfolds_turnAway {host : Host} {call : Call} {s : State} {fs : List Frame}
    (hdue : Due host call fs) (h : ¬ LetIn call s) :
    ∃ history, history.flatMap Deed.builds = [] ∧
      Unfolds ⟨s, fs⟩ history ⟨(turnAway call s).2, deliver (turnAway call s).1 fs⟩ := by
  by_cases hc : call.condition = 0
  · refine ⟨[.arrived, .finished], rfl, ?_⟩
    rw [turnAway, if_pos hc]
    exact (Unfolds.single (.arrive hdue)).step (.finish hc)
  · have hbusy : s.engine.busy = true := by
      cases hb : s.engine.busy with
      | true => rfl
      | false => exact absurd ⟨hc, hb⟩ h
    refine ⟨[.arrived, .refused], rfl, ?_⟩
    rw [turnAway, if_neg hc]
    exact (Unfolds.single (.arrive hdue)).step (.refuse hc hbusy)

/-- While the guard is taken, a running body makes its calls and all are turned away. -/
theorem unfolds_pending (host : Host) (call : Call) (a : Artifact) (before : Memory)
    (answers : List Int32) (pending : List Call) {s : State} (hbusy : s.engine.busy = true)
    (fs : List Frame) :
    ∃ history, history.flatMap Deed.builds = [] ∧
      Unfolds ⟨s, ⟨host, call, .running a before answers pending⟩ :: fs⟩ history
        ⟨s.count (·.turnedAway pending),
          ⟨host, call, .running a before (answers ++ pending.map (·.condition)) []⟩ :: fs⟩ := by
  induction pending generalizing s answers with
  | nil =>
      refine ⟨[], rfl, ?_⟩
      rw [List.map_nil, List.append_nil]
      exact .refl
  | cons c cs ih =>
      have hout : ¬ LetIn c s := fun h => by simp [h.free] at hbusy
      have hdue : Due host c (⟨host, call, .running a before answers (c :: cs)⟩ :: fs) := .nested
      obtain ⟨h₁, hb₁, hu₁⟩ := unfolds_turnAway hdue hout
      rw [turnAway_eq] at hu₁
      obtain ⟨h₂, hb₂, hu₂⟩ := ih (answers ++ [c.condition])
        (s := s.count (·.turnedAway [c])) hbusy
      refine ⟨h₁ ++ h₂, by rw [List.flatMap_append, hb₁, hb₂]; rfl, ?_⟩
      have hcount : (s.count (·.turnedAway [c])).count (·.turnedAway cs) =
          s.count (·.turnedAway (c :: cs)) := by
        simp only [State.count, ← EngineCounts.turnedAway_append, List.singleton_append]
      rw [hcount, List.append_assoc] at hu₂
      exact hu₁.trans hu₂

theorem specialize_of_not_letIn {host : Host} {call : Call} {s : State} (h : ¬ LetIn call s) :
    specialize host call s = turnAway call s := by
  by_cases hc : call.condition = 0
  · simp only [specialize, answerWith, turnAway, hc, if_true]
  · cases hb : s.engine.busy with
    | true => exact answerWith_of_busy host turnAway call s hb
    | false => exact absurd ⟨hc, hb⟩ h

theorem specialize_of_letIn {call : Call} {s : State} (h : LetIn call s) (host : Host) :
    specialize host call s = ((attempt host turnAway call s.claimed).1,
      (attempt host turnAway call s.claimed).2.setBusy false) := by
  have hfree : (countInvocation s).engine.busy = false := h.free
  simp only [specialize, answerWith, if_neg h.unfinished, hfree, Bool.false_eq_true, if_false]
  rfl

theorem specialize_of_malformed {call : Call} {s : State} (h : LetIn call s) (host : Host)
    {e : ParameterError} (hparse : Parameters.parse call.site.parameters = .error e) :
    specialize host call s =
      (call.condition, (s.claimed.fail call.site (.parameters e)).setBusy false) := by
  rw [specialize_of_letIn h, attempt, hparse]

theorem specialize_of_not_wanted {host : Host} {call : Call} {s : State} (h : LetIn call s)
    {ps : Parameters} (hparse : Parameters.parse call.site.parameters = .ok ps)
    (hwanted : ¬ Wanted host call ps s.claimed) :
    specialize host call s = (call.condition,
      ((s.claimed.count fun c => { c with deferred := c.deferred + 1 }).report
        (.deferred call.site.displayName
          (100 * call.site.progress call.iteration))).setBusy false) := by
  simp only [Wanted, not_or, Bool.not_eq_true] at hwanted
  simp only [specialize_of_letIn h, attempt, hparse, serve, hwanted.1, hwanted.2, Bool.not_false,
    Bool.and_self, if_true]

theorem attempt_of_asks {host : Host} {call : Call} {s s₁ : State} {ps : Parameters}
    {r : Except SpecializationError Body} (h : Asks host call s ps r s₁) (answer : Answering) :
    attempt host answer call s =
      match obtainBody host call.site ps (call.site.keyOf host.hash ps) s with
      | (.error e, s₁) => (call.condition, s₁.fail call.site e)
      | (.ok b, s₁) => runObtained host answer call b (s.obtained host call ps s₁) := by
  have hwanted : (!s.engine.cache.contains (call.site.keyOf host.hash ps) &&
      !s.engine.settings.policy.admits (call.site.progress call.iteration)) = false := by
    rcases h.wanted with hw | hw
    · simp [hw]
    · simp [hw]
  simp only [attempt, h.parsed, serve, hwanted, Bool.false_eq_true, if_false]
  rfl

theorem specialize_of_asks_error {host : Host} {call : Call} {s s₁ : State} (hin : LetIn call s)
    {ps : Parameters} {e : SpecializationError} (h : Asks host call s.claimed ps (.error e) s₁) :
    specialize host call s = (call.condition, (s₁.fail call.site e).setBusy false) := by
  rw [specialize_of_letIn hin, attempt_of_asks h, h.obtained]

theorem specialize_of_asks_ok {host : Host} {call : Call} {s s₁ : State} (hin : LetIn call s)
    {ps : Parameters} {b : Body} (h : Asks host call s.claimed ps (.ok b) s₁) :
    specialize host call s =
      let r := runObtained host turnAway call b (s.claimed.obtained host call ps s₁)
      (r.1, r.2.setBusy false) := by
  rw [specialize_of_letIn hin, attempt_of_asks h, h.obtained]

/-- A body's run is its calls, all turned away, and its return. -/
theorem Artifact.run_eq_returned (a : Artifact) (host : Host) (call : Call) (s : State) :
    (a.run host turnAway call.iteration call.pack s).2 =
      a.returned host call s.machine.memory
        ((host.calls a.entry call.iteration call.pack).map (·.condition))
        (s.count (·.turnedAway (host.calls a.entry call.iteration call.pack))) := by
  simp only [Artifact.run, answerAll_turnAway_eq, Artifact.returned]

theorem busy_obtained {host : Host} {call : Call} {s s₁ : State} {ps : Parameters}
    {r : Except SpecializationError Body} (h : Asks host call s ps r s₁) :
    (s.obtained host call ps s₁).engine.busy = s.engine.busy := by
  have hsame := busy_obtainBody host call.site ps (call.site.keyOf host.hash ps) s
  rw [h.obtained] at hsame
  rw [State.obtained, busy_countObtained, hsame]

theorem cache_obtained (s : State) (host : Host) (call : Call) (ps : Parameters) (s₁ : State) :
    (s.obtained host call ps s₁).engine.cache = s₁.engine.cache :=
  cache_countObtained _ _ s₁

theorem unfolds_claim {host : Host} {call : Call} {s : State} {fs : List Frame}
    (hdue : Due host call fs) (h : LetIn call s) :
    Unfolds ⟨s, fs⟩ [.arrived, .claimed] ⟨s.claimed, ⟨host, call, .claimed⟩ :: fs⟩ :=
  (Unfolds.single (.arrive hdue)).step (.claim h.unfinished h.free)

/-- A call that asks for a body is lived through to its answer, and the builds on the way are
those that the cache carries out for it. -/
theorem unfolds_asks {host : Host} {call : Call} {s s₁ : State} {fs : List Frame}
    {ps : Parameters} {r : Except SpecializationError Body} (hdue : Due host call fs)
    (hin : LetIn call s) (h : Asks host call s.claimed ps r s₁) :
    ∃ history, history.flatMap Deed.builds = (Deed.asking host call ps s.claimed).builds ∧
      Unfolds ⟨s, fs⟩ history
        ⟨(specialize host call s).2, deliver (specialize host call s).1 fs⟩ := by
  have hclaim := unfolds_claim hdue hin
  cases r with
  | error e =>
      rw [specialize_of_asks_error hin h]
      have hsteps := (hclaim.step (.giveUp ps e s₁ h)).step (.release call.condition)
      exact ⟨_, by simp [Deed.builds], hsteps⟩
  | ok b =>
      rw [specialize_of_asks_ok hin h]
      cases ha : b.artifact with
      | none =>
          have hsteps := (hclaim.step (.miss ps b s₁ h ha)).step (.release call.condition)
          simp only [runObtained, Body.run, ha]
          exact ⟨_, by simp [Deed.builds], hsteps⟩
      | some a =>
          have hbusy : (s.claimed.obtained host call ps s₁).engine.busy = true := busy_obtained h
          obtain ⟨history, hbuilds, hpending⟩ := unfolds_pending host call a
            (s.claimed.obtained host call ps s₁).machine.memory []
            (host.calls a.entry call.iteration call.pack) hbusy fs
          have hsteps := (((hclaim.step (.enter ps b a s₁ h ha)).trans hpending).step
            (.leave a _ _)).step (.release 0)
          rw [runObtained_of_artifact ha, Artifact.run_eq_returned]
          exact ⟨_, by simp [Deed.builds, hbuilds], hsteps⟩

/-- **Every call is lived through to the answer and the state that `specialize` gives**, whether it
comes from outside or from a running body. -/
theorem unfolds_specialize {host : Host} {call : Call} {fs : List Frame}
    (hdue : Due host call fs) (s : State) :
    ∃ history, Unfolds ⟨s, fs⟩ history
      ⟨(specialize host call s).2, deliver (specialize host call s).1 fs⟩ := by
  by_cases hin : LetIn call s
  · have hclaim := unfolds_claim hdue hin
    cases hparse : Parameters.parse call.site.parameters with
    | error e =>
        rw [specialize_of_malformed hin host hparse]
        exact ⟨_, (hclaim.step (.reject e hparse)).step (.release call.condition)⟩
    | ok ps =>
        by_cases hwanted : Wanted host call ps s.claimed
        · obtain ⟨r, s₁, hasks⟩ := exists_asks hparse hwanted
          obtain ⟨history, -, hsteps⟩ := unfolds_asks hdue hin hasks
          exact ⟨history, hsteps⟩
        · rw [specialize_of_not_wanted hin hparse hwanted]
          exact ⟨_, (hclaim.step (.defer ps hparse hwanted)).step (.release call.condition)⟩
  · rw [specialize_of_not_letIn hin]
    obtain ⟨history, -, hsteps⟩ := unfolds_turnAway hdue hin
    exact ⟨history, hsteps⟩

/-! ## Nothing else happens -/

/-- The states that calls lead to one after another, the machine being changed by other hands in
between. -/
inductive Served (start : State) : State → Prop
  | start : Served start start
  | call {s : State} (host : Host) (call : Call) : Served start s →
      Served start (specialize host call s).2
  | world {s : State} (machine : Machine) : Served start s → Served start { s with machine }

/-- A call that finds the guard free leaves it free, whichever way it is answered. -/
theorem free_specialize {s : State} (h : s.engine.busy = false) (host : Host) (call : Call) :
    (specialize host call s).2.engine.busy = false := by
  by_cases hin : LetIn call s
  · rw [specialize_of_letIn hin]
    rfl
  · rw [specialize_of_not_letIn hin, busy_turnAway, h]

theorem Served.free {start s : State} (h : Served start s) (hfree : start.engine.busy = false) :
    s.engine.busy = false := by
  induction h with
  | start => exact hfree
  | call host call _ ih => exact free_specialize ih host call
  | world machine _ ih => exact ih

theorem Served.reaches {start s : State} (h : Served start s) :
    Reaches (fun _ => True) start s := by
  induction h with
  | start => exact .refl
  | call host call _ ih => exact ih.move (.call host call) trivial
  | world machine _ ih => exact ih.move (.world machine) trivial

theorem Asks.enters {host : Host} {call : Call} {s s₁ : State} {ps : Parameters} {b : Body}
    (h : Asks host call s.claimed ps (.ok b) s₁) (hin : LetIn call s) :
    Enters host call s ps b (s.claimed.obtained host call ps s₁) :=
  ⟨hin, h.parsed, h.wanted, by rw [h.obtained], by rw [h.obtained]; rfl⟩

theorem Enters.asks {host : Host} {call : Call} {s s' : State} {ps : Parameters} {b : Body}
    (h : Enters host call s ps b s') :
    ∃ s₁, Asks host call s.claimed ps (.ok b) s₁ ∧ s' = s.claimed.obtained host call ps s₁ :=
  ⟨_, ⟨h.parsed, h.wanted, Prod.ext h.obtained rfl⟩, h.state⟩

theorem Enters.busy {host : Host} {call : Call} {s s' : State} {ps : Parameters} {b : Body}
    (h : Enters host call s ps b s') : s'.engine.busy = true := by
  obtain ⟨s₁, hasks, rfl⟩ := h.asks
  exact busy_obtained hasks

/-- A call that was made between calls has entered its body in state `s₁`, and of the body's calls
some are done and some pending. -/
def InBody (start : State) (host : Host) (call : Call) (a : Artifact) (done pending : List Call)
    (s₁ : State) : Prop :=
  ∃ s ps b, Served start s ∧ Enters host call s ps b s₁ ∧ b.artifact = some a ∧
    host.calls a.entry call.iteration call.pack = done ++ pending

/-- The shapes that a moment can have. -/
inductive Explained (start : State) : Moment → Prop
  | between {s : State} : Served start s → Explained start ⟨s, []⟩
  | arrived {s : State} {host : Host} {call : Call} : Served start s →
      Explained start ⟨countInvocation s, [⟨host, call, .arrived⟩]⟩
  | claimed {s : State} {host : Host} {call : Call} : Served start s → LetIn call s →
      Explained start ⟨s.claimed, [⟨host, call, .claimed⟩]⟩
  | running {s₁ : State} {host : Host} {call : Call} {a : Artifact} {done pending : List Call} :
      InBody start host call a done pending s₁ →
      Explained start ⟨s₁.count (·.turnedAway done),
        [⟨host, call, .running a s₁.machine.memory (done.map (·.condition)) pending⟩]⟩
  | nested {s₁ : State} {host : Host} {call c : Call} {a : Artifact} {done pending : List Call} :
      InBody start host call a done (c :: pending) s₁ →
      Explained start ⟨countInvocation (s₁.count (·.turnedAway done)),
        [⟨host, c, .arrived⟩,
          ⟨host, call, .running a s₁.machine.memory (done.map (·.condition)) (c :: pending)⟩]⟩
  | leaving {s s' : State} {host : Host} {call : Call} {status : Int32} : Served start s →
      LetIn call s → specialize host call s = (status, s'.setBusy false) →
      s'.engine.busy = true → Explained start ⟨s', [⟨host, call, .leaving status⟩]⟩

namespace Explained

variable {start : State}

/-- A call with nothing left to do, or one that finds the guard taken, is turned away. -/
theorem turnedAway_nested {s₁ : State} {host : Host} {call c : Call} {a : Artifact}
    {done pending : List Call} (h : InBody start host call a done (c :: pending) s₁)
    {r : Int32 × State} (hr : r = turnAway c (s₁.count (·.turnedAway done))) :
    Explained start ⟨r.2, deliver r.1
      [⟨host, call, .running a s₁.machine.memory (done.map (·.condition)) (c :: pending)⟩]⟩ := by
  obtain ⟨s, ps, b, hserved, henters, ha, hcalls⟩ := h
  have hnext : InBody start host call a (done ++ [c]) pending s₁ :=
    ⟨s, ps, b, hserved, henters, ha, by rw [hcalls, List.append_assoc]; rfl⟩
  have hcount : (s₁.count (·.turnedAway done)).count (·.turnedAway [c]) =
      s₁.count (·.turnedAway (done ++ [c])) := by
    simp only [State.count, EngineCounts.turnedAway_append]
  rw [hr, turnAway_eq, hcount]
  have hexplained := Explained.running hnext
  rw [List.map_append, List.map_singleton] at hexplained
  exact hexplained

/-- **A step leads from an explained moment to another one.** -/
theorem step (hfree : start.engine.busy = false) {m m' : Moment} {d : Deed}
    (h : Explained start m) (hstep : Step m d m') : Explained start m' := by
  cases h with
  | between hserved =>
      cases hstep with
      | arrive hdue => exact .arrived hserved
      | world machine => exact .between (.world machine hserved)
  | @arrived s host call hserved =>
      cases hstep with
      | arrive hdue => cases hdue
      | finish hc =>
          have hcall := Served.call host call hserved
          rw [specialize_of_not_letIn fun h => h.unfinished hc, turnAway, if_pos hc] at hcall
          exact .between hcall
      | refuse hc hbusy =>
          have hfree' : (countInvocation s).engine.busy = false := hserved.free hfree
          rw [hfree'] at hbusy
          cases hbusy
      | claim hc hb => exact .claimed hserved ⟨hc, hb⟩
  | @claimed s host call hserved hin =>
      cases hstep with
      | arrive hdue => cases hdue
      | reject e hparse => exact .leaving hserved hin (specialize_of_malformed hin host hparse) rfl
      | defer ps hparse hwanted =>
          exact .leaving hserved hin (specialize_of_not_wanted hin hparse hwanted) rfl
      | giveUp ps e s₁ hasks =>
          have hbusy := busy_obtainBody host call.site ps (call.site.keyOf host.hash ps) s.claimed
          rw [hasks.obtained] at hbusy
          exact .leaving hserved hin (specialize_of_asks_error hin hasks) hbusy
      | miss ps b s₁ hasks ha =>
          refine .leaving hserved hin ?_ (busy_obtained hasks)
          rw [specialize_of_asks_ok hin hasks]
          simp only [runObtained, Body.run, ha]
      | enter ps b a s₁ hasks ha =>
          have hbody : InBody start host call a [] (host.calls a.entry call.iteration call.pack)
              (s.claimed.obtained host call ps s₁) :=
            ⟨s, ps, b, hserved, hasks.enters hin, ha, rfl⟩
          exact .running hbody
  | @running s₁ host call a done pending hbody =>
      cases hstep with
      | arrive hdue =>
          cases hdue
          exact .nested hbody
      | leave =>
          obtain ⟨s, ps, b, hserved, henters, ha, hcalls⟩ := hbody
          obtain ⟨s₀, hasks, rfl⟩ := henters.asks
          rw [List.append_nil] at hcalls
          refine .leaving hserved henters.letIn ?_ ?_
          · rw [specialize_of_asks_ok henters.letIn hasks, runObtained_of_artifact ha,
              Artifact.run_eq_returned, hcalls]
          · rw [State.engine_time]
            exact henters.busy
  | @nested s₁ host call c a done pending hbody =>
      have hbusy : s₁.engine.busy = true := by
        obtain ⟨s, ps, b, _, henters, _⟩ := hbody
        exact henters.busy
      cases hstep with
      | arrive hdue => cases hdue
      | finish hc => exact turnedAway_nested hbody (by rw [turnAway, if_pos hc])
      | refuse hc _ => exact turnedAway_nested hbody (by rw [turnAway, if_neg hc])
      | claim hc hb =>
          have hb' : s₁.engine.busy = false := hb
          rw [hbusy] at hb'
          cases hb'
  | @leaving s s' host call status hserved hin hspecialize hbusy =>
      cases hstep with
      | arrive hdue => cases hdue
      | release =>
          have hcall := Served.call host call hserved
          rw [hspecialize] at hcall
          exact .between hcall

end Explained

/-- **Every moment is explained.** -/
theorem Unfolds.explained {start : State} (hfree : start.engine.busy = false) {history : List Deed}
    {m : Moment} (h : Unfolds ⟨start, []⟩ history m) : Explained start m := by
  induction h with
  | refl => exact .between .start
  | step _ hstep ih => exact ih.step hfree hstep

/-- A body that a call obtains is linked, in every moment of a new engine's life. -/
theorem Explained.linked {settings : Settings} {pipeline : Pipeline} {machine : Machine}
    {s s₁ : State} {host : Host} {call : Call} {fs : List Frame}
    (h : Explained (.fresh settings pipeline machine) ⟨s, ⟨host, call, .claimed⟩ :: fs⟩)
    {ps : Parameters} {b : Body} (hasks : Asks host call s ps (.ok b) s₁) :
    ∃ a, b.artifact = some a := by
  cases h with
  | claimed hserved hin => exact hserved.reaches.linked_of_enters (hasks.enters hin)

/-- **The moments between calls are the states that calls of `specialize` lead to.** -/
theorem exists_unfolds_iff_served {start : State} (hfree : start.engine.busy = false) {s : State} :
    (∃ history, Unfolds ⟨start, []⟩ history ⟨s, []⟩) ↔ Served start s := by
  constructor
  · rintro ⟨history, h⟩
    cases h.explained hfree with
    | between hserved => exact hserved
  · intro h
    induction h with
    | start => exact ⟨[], .refl⟩
    | @call s host call _ ih =>
        obtain ⟨history, hu⟩ := ih
        obtain ⟨history', hu'⟩ := unfolds_specialize (.outer host call) s
        exact ⟨_, hu.trans hu'⟩
    | world machine _ ih =>
        obtain ⟨history, hu⟩ := ih
        exact ⟨_, hu.step (.world machine)⟩

end Loopsmith
