import Loopsmith.Proofs.Engine.Moments

/-!
# The guard

A body that is running may call back into the engine that runs it.  To keep such a call from
starting a second build or a second run inside the first, an attempt takes a guard and frees it
when it returns, whichever way it ends.

Two things could go wrong.  A call that is refused could free the guard that the attempt around it
holds, and the next call of the body would be let in; or an exit could be missing the release, and
no call would ever be let in again.  Neither shows in a single answer, so the statement is about
all moments: the guard is taken exactly while an attempt is in progress.  It holds because the
moments have few shapes (`Explained`): at most one call has got past the guard, it is the outermost,
and all that happens inside it is the refusal of other calls.
-/

namespace Loopsmith

namespace Explained

variable {start : State} {m : Moment}

/-- The guard is taken exactly while a call that goes on has got past it. -/
theorem busy_iff (hfree : start.engine.busy = false) (h : Explained start m) :
    m.state.engine.busy = true ↔
      ∃ f ∈ m.frames, f.call.condition ≠ 0 ∧ f.stage ≠ .arrived := by
  cases h with
  | @between s hserved => simp [hserved.free hfree]
  | @arrived s host call hserved =>
      have hs : (countInvocation s).engine.busy = false := hserved.free hfree
      simp [hs]
  | claimed _ hin => exact iff_of_true rfl ⟨_, List.mem_singleton_self _, hin.unfinished, nofun⟩
  | running hbody =>
      obtain ⟨s, ps, b, _, henters, _⟩ := hbody
      exact iff_of_true henters.busy
        ⟨_, List.mem_singleton_self _, henters.letIn.unfinished, nofun⟩
  | nested hbody =>
      obtain ⟨s, ps, b, _, henters, _⟩ := hbody
      -- the call that has just come in is not past the guard, the one around it is
      exact iff_of_true henters.busy
        ⟨_, List.mem_cons_of_mem _ (List.mem_singleton_self _), henters.letIn.unfinished, nofun⟩
  | leaving _ hin _ hbusy =>
      exact iff_of_true hbusy ⟨_, List.mem_singleton_self _, hin.unfinished, nofun⟩

/-- A running body's calls find the guard taken. -/
theorem busy_of_due (h : Explained start m) {host : Host} {call : Call}
    (hdue : Due host call m.frames) (hne : m.frames ≠ []) : m.state.engine.busy = true := by
  cases h with
  | between => exact absurd rfl hne
  | arrived => cases hdue
  | claimed => cases hdue
  | running hbody =>
      obtain ⟨s, ps, b, _, henters, _⟩ := hbody
      exact henters.busy
  | nested => cases hdue
  | leaving => cases hdue

/-- The calls that a running body has made were answered with their conditions. -/
theorem answers_eq (h : Explained start m) {f : Frame} (hf : f ∈ m.frames) {a : Artifact}
    {before : Memory} {answers : List Int32} {pending : List Call}
    (hstage : f.stage = .running a before answers pending) :
    ∃ done, f.host.calls a.entry f.call.iteration f.call.pack = done ++ pending ∧
      answers = done.map (·.condition) := by
  cases h with
  | between => simp at hf
  | arrived =>
      rw [List.mem_singleton.1 hf] at hstage
      cases hstage
  | claimed =>
      rw [List.mem_singleton.1 hf] at hstage
      cases hstage
  | @running _ _ _ _ done _ hbody =>
      obtain ⟨s, ps, b, _, _, _, hcalls⟩ := hbody
      rw [List.mem_singleton.1 hf] at hstage ⊢
      cases hstage
      exact ⟨done, hcalls, rfl⟩
  | @nested _ _ _ _ _ done _ hbody =>
      obtain ⟨s, ps, b, _, _, _, hcalls⟩ := hbody
      rcases List.mem_cons.1 hf with rfl | hf
      · cases hstage
      · rw [List.mem_singleton.1 hf] at hstage ⊢
        cases hstage
        exact ⟨done, hcalls, rfl⟩
  | leaving =>
      rw [List.mem_singleton.1 hf] at hstage
      cases hstage

end Explained

/-- A call that finds the guard taken is counted, and nothing else happens. -/
theorem specialize_of_busy {s : State} (h : s.engine.busy = true) (host : Host) (call : Call) :
    specialize host call s =
      (call.condition, s.count fun c =>
        if call.condition = 0 then
          { c with invocations := c.invocations + 1, finished := c.finished + 1 }
        else { c with invocations := c.invocations + 1, reentrant := c.reentrant + 1 }) := by
  have hout : ¬ LetIn call s := fun hin => by simp [hin.free] at h
  rw [specialize_of_not_letIn hout, turnAway]
  by_cases hc : call.condition = 0
  · simp only [hc, if_true]
    rfl
  · simp only [if_neg hc]
    rfl

/-- **The guard is taken exactly while an attempt is in progress.**  In every moment of an engine's
life, whatever calls come from outside and from running bodies:

* the guard is taken if and only if a call with something left to do has got past it and has not
  returned;
* whatever call comes next, what happens is what `specialize` says, also if a body makes it, and the
  moments between calls are the states that calls of `specialize` lead to one after another;
* a call from outside leaves the guard free, whichever way it is answered;
* a call that a running body makes is answered with its condition, and all that changes is the
  count of calls and that of refused or, if it has nothing left to do, of finished ones;
* so has every call been that the running body has made so far;
* refusing a call leaves the guard taken. -/
theorem guard_spans_attempts {settings : Settings} {pipeline : Pipeline} {machine : Machine}
    {history : List Deed} {m : Moment}
    (h : Unfolds ⟨.fresh settings pipeline machine, []⟩ history m) :
    (m.state.engine.busy = true ↔
      ∃ f ∈ m.frames, f.call.condition ≠ 0 ∧ f.stage ≠ .arrived) ∧
    (∀ (host : Host) (call : Call), Due host call m.frames →
      ∃ history', Unfolds m history'
        ⟨(specialize host call m.state).2, deliver (specialize host call m.state).1 m.frames⟩) ∧
    (∀ s : State, (∃ history', Unfolds ⟨.fresh settings pipeline machine, []⟩ history' ⟨s, []⟩) ↔
      Served (.fresh settings pipeline machine) s) ∧
    (m.frames = [] → ∀ (host : Host) (call : Call),
      (specialize host call m.state).2.engine.busy = false) ∧
    (m.frames ≠ [] → ∀ (host : Host) (call : Call), Due host call m.frames →
      specialize host call m.state =
        (call.condition, m.state.count fun c =>
          if call.condition = 0 then
            { c with invocations := c.invocations + 1, finished := c.finished + 1 }
          else { c with invocations := c.invocations + 1, reentrant := c.reentrant + 1 })) ∧
    (∀ f ∈ m.frames, ∀ a before answers pending, f.stage = .running a before answers pending →
      ∃ done, f.host.calls a.entry f.call.iteration f.call.pack = done ++ pending ∧
        answers = done.map (·.condition)) ∧
    (∀ m' : Moment, Step m .refused m' → m'.state.engine.busy = true) := by
  have hexplained := h.explained rfl
  have hguard := hexplained.busy_iff rfl
  refine ⟨hguard, ?_, fun s => exists_unfolds_iff_served rfl, ?_, ?_, ?_, ?_⟩
  · intro host call hdue
    exact unfolds_specialize hdue m.state
  · intro hframes host call
    refine free_specialize ?_ host call
    cases hbusy : m.state.engine.busy with
    | false => rfl
    | true =>
        obtain ⟨f, hf, -⟩ := hguard.1 hbusy
        simp [hframes] at hf
  · intro hne host call hdue
    exact specialize_of_busy (hexplained.busy_of_due hdue hne) host call
  · intro f hf a before answers pending hstage
    exact hexplained.answers_eq hf hstage
  · intro m' hstep
    cases hstep with
    | refuse _ hbusy => exact hbusy

/-- The first call of a loop builds its body and enters it, and the body calls back: the guard is
taken, and the body's call is answered with its condition and changes two counters only. -/
theorem guard_spans_attempts_in_body :
    ∃ history m, Unfolds ⟨Sample.start, []⟩ history m ∧ m.frames ≠ [] ∧
      Due Sample.host (Sample.call 3) m.frames ∧ m.state.engine.busy = true ∧
      specialize Sample.host (Sample.call 3) m.state =
        (2, m.state.count fun c =>
          { c with invocations := c.invocations + 1, reentrant := c.reentrant + 1 }) := by
  let ps : Parameters := ⟨[("N", "4")]⟩
  have hwanted : Wanted Sample.host (Sample.call 0) ps Sample.start.claimed := .inr rfl
  obtain ⟨b, a, s₁, hasks, ha, hzero⟩ : ∃ b a s₁,
      Asks Sample.host (Sample.call 0) Sample.start.claimed ps (.ok b) s₁ ∧
        b.artifact = some a ∧ a.entry = 0 := by
    obtain ⟨r, s₁, hasks⟩ := exists_asks rfl hwanted
    have hentry : (r.toOption.bind Body.artifact).map Artifact.entry = some 0 := by
      have hfirst : (obtainBody Sample.host _ ps _ Sample.start.claimed).1 = r :=
        congrArg Prod.fst hasks.obtained
      rw [← hfirst]
      decide +kernel
    cases r with
    | error e => cases hentry
    | ok b =>
        obtain ⟨a, ha, hzero⟩ := Option.map_eq_some_iff.1 hentry
        exact ⟨b, a, s₁, hasks, ha, hzero⟩
  have hcondition : (Sample.call 0).condition ≠ 0 := by decide
  have hentered := (unfolds_claim (.outer Sample.host (Sample.call 0)) ⟨hcondition, rfl⟩).step
    (.enter ps b a _ hasks ha)
  have hcalls : Sample.host.calls a.entry (Sample.call 0).iteration (Sample.call 0).pack =
      [Sample.call 3] := by
    rw [hzero]
    rfl
  rw [hcalls] at hentered
  have hguard := guard_spans_attempts hentered
  have hbusy := hguard.1.2 ⟨_, List.mem_singleton_self _, hcondition, nofun⟩
  have hnested := hguard.2.2.2.2.1 (List.cons_ne_nil _ _) Sample.host (Sample.call 3) .nested
  exact ⟨_, _, hentered, List.cons_ne_nil _ _, .nested, hbusy, hnested⟩

end Loopsmith
