import Loopsmith.Engine.Basic

/-!
# Answering a call

`specialize` is what a loop calls.  It returns zero when a specialized body has run
the loop to its end, and otherwise the loop's condition, unchanged, so that the loop
goes on with the code it has.

A body may call back into the engine that is running it.  Such a call finds the guard
taken, so it is counted and turned away (`turnAway`), and nothing else happens.  That is
why `specialize` does not have to be recursive: it answers the calls of a body by
`turnAway`, and `answerWith_specialize` says that answering them by `specialize` itself
would make no difference.
-/

namespace Loopsmith

/-- How a call is answered: the status returned, and the state after it. -/
abbrev Answering := Call → State → Int32 × State

/-- Answers calls one after the other. -/
def answerAll (answer : Answering) : List Call → State → List Int32 × State
  | [], s => ([], s)
  | c :: cs, s =>
      let (status, s) := answer c s
      let (statuses, s) := answerAll answer cs s
      (status :: statuses, s)

/-- Runs a linked body; `answer` is how the calls it makes are answered. -/
def Artifact.run (a : Artifact) (host : Host) (answer : Answering) (iteration : Int64)
    (pack : Pack) (s : State) : Int32 × State :=
  let before := s.machine.memory
  let (nested, s) := answerAll answer (host.calls a.entry iteration pack) s
  let seen := s.engine.tally
  let (status, memory) := host.enter a.entry iteration pack s.machine.memory
  let ran : BodyRun := ⟨a.entry, iteration, pack, before, nested, seen, status⟩
  (status, { s with machine := Machine.note { s.machine with memory } (.run ran) })

/-- Runs a body if it is linked. -/
def Body.run (b : Body) (host : Host) (answer : Answering) (iteration : Int64) (pack : Pack)
    (s : State) : Except SpecializationError Int32 × State :=
  match b.artifact with
  | none => (.error .notLinked, s)
  | some a =>
      let (status, s) := a.run host answer iteration pack s
      (.ok status, s)

/-! ## One call -/

def countInvocation (s : State) : State :=
  s.count fun c => { c with invocations := c.invocations + 1 }

/-- A loop with nothing left to do. -/
def finishedCall (s : State) : Int32 × State :=
  (0, s.count fun c => { c with finished := c.finished + 1 })

/-- A call that came while another was being answered. -/
def refusedCall (call : Call) (s : State) : Int32 × State :=
  (call.condition, s.count fun c => { c with reentrant := c.reentrant + 1 })

/-- What becomes of a call while the guard is taken. -/
def turnAway : Answering := fun call s =>
  let s := countInvocation s
  if call.condition = 0 then finishedCall s else refusedCall call s

/-- Renders and links the body of a site. -/
def buildBody (host : Host) (site : LoopSite) (ps : Parameters) (w : Pipeline × Machine) :
    Except SpecializationError Body × Pipeline × Machine :=
  match Body.withParameters site.source ps with
  | .error e => (.error e, w)
  | .ok b => b.link host site.compiler w.1 w.2

/-- The body of a key, built if there is none yet. -/
def obtainBody (host : Host) (site : LoopSite) (ps : Parameters) (key : Key) (s : State) :
    Except SpecializationError Body × State :=
  let (built, cache, pipeline, machine) :=
    s.engine.cache.getOrCreate key (buildBody host site ps) (s.engine.pipeline, s.machine)
  (built, { engine := { s.engine with cache, pipeline }, machine })

/-- Counts a body that was obtained, and reports one that is new. -/
def countObtained (call : Call) (hit : Bool) (s : State) : State :=
  if hit then s.count fun c => { c with cacheHits := c.cacheHits + 1 }
  else
    let s := s.count fun c => { c with specialized := c.specialized + 1 }
    (s.report (.specialized call.site.displayName call.iteration)).time "DopingRuntime"

/-- Runs the body that was obtained for a call. -/
def runObtained (host : Host) (answer : Answering) (call : Call) (b : Body) (s : State) :
    Int32 × State :=
  match b.run host answer call.iteration call.pack s with
  | (.error e, s) => (call.condition, s.fail call.site e)
  | (.ok _, s) => (0, s.time "DynFunction")

/-- Answers a call whose parameters could be read. -/
def serve (host : Host) (answer : Answering) (call : Call) (ps : Parameters) (s : State) :
    Int32 × State :=
  let key := Key.of host.hash call.site.name ps call.site.source
  let hit := s.engine.cache.contains key
  let progress := call.site.progress call.iteration
  if !hit && !s.engine.settings.policy.admits progress then
    (call.condition,
      (s.count fun c => { c with deferred := c.deferred + 1 }).report
        (.deferred call.site.displayName (100 * progress)))
  else
    match obtainBody host call.site ps key s with
    | (.error e, s) => (call.condition, s.fail call.site e)
    | (.ok b, s) => runObtained host answer call b (countObtained call hit s)

/-- Answers a call under the guard. -/
def attempt (host : Host) (answer : Answering) (call : Call) (s : State) : Int32 × State :=
  match Parameters.parse call.site.parameters with
  | .error e => (call.condition, s.fail call.site (.parameters e))
  | .ok ps => serve host answer call ps s

/-- Answers a call, the calls of its body being answered by `answer`. -/
def answerWith (host : Host) (answer : Answering) : Answering := fun call s =>
  let s := countInvocation s
  if call.condition = 0 then finishedCall s
  else if s.engine.busy then refusedCall call s
  else
    let (status, s) := attempt host answer call (s.setBusy true)
    (status, s.setBusy false)

/-- Answers a call. -/
def specialize (host : Host) : Answering :=
  answerWith host turnAway

/-! ## Calls of a running body -/

theorem answerWith_of_busy (host : Host) (answer : Answering) (call : Call) (s : State)
    (h : s.engine.busy = true) : answerWith host answer call s = turnAway call s := by
  simp [answerWith, turnAway, countInvocation, State.count, h]

theorem busy_turnAway (call : Call) (s : State) :
    (turnAway call s).2.engine.busy = s.engine.busy := by
  unfold turnAway
  split <;> rfl

/-- While the guard is taken it makes no difference whether calls are answered in full
or turned away at once. -/
theorem answerAll_of_busy (host : Host) (answer : Answering) (calls : List Call) (s : State)
    (h : s.engine.busy = true) :
    answerAll (answerWith host answer) calls s = answerAll turnAway calls s := by
  induction calls generalizing s with
  | nil => rfl
  | cons c cs ih =>
      have hs : (turnAway c s).2.engine.busy = true := by rw [busy_turnAway, h]
      simp only [answerAll, answerWith_of_busy host answer c s h, ih _ hs]

theorem Artifact.run_of_busy (a : Artifact) (host : Host) (answer : Answering)
    (iteration : Int64) (pack : Pack) (s : State) (h : s.engine.busy = true) :
    a.run host (answerWith host answer) iteration pack s =
      a.run host turnAway iteration pack s := by
  simp only [Artifact.run, answerAll_of_busy host answer _ s h]

theorem Body.run_of_busy (b : Body) (host : Host) (answer : Answering) (iteration : Int64)
    (pack : Pack) (s : State) (h : s.engine.busy = true) :
    b.run host (answerWith host answer) iteration pack s =
      b.run host turnAway iteration pack s := by
  unfold Body.run
  split
  · rfl
  · rw [Artifact.run_of_busy _ host answer iteration pack s h]

theorem busy_countObtained (call : Call) (hit : Bool) (s : State) :
    (countObtained call hit s).engine.busy = s.engine.busy := by
  unfold countObtained State.time
  dsimp only
  split
  · rfl
  · split <;> rfl

theorem busy_obtainBody (host : Host) (site : LoopSite) (ps : Parameters) (key : Key) (s : State) :
    (obtainBody host site ps key s).2.engine.busy = s.engine.busy := rfl

theorem serve_of_busy (host : Host) (answer : Answering) (call : Call) (ps : Parameters)
    (s : State) (h : s.engine.busy = true) :
    serve host (answerWith host answer) call ps s = serve host turnAway call ps s := by
  unfold serve
  dsimp only
  split
  · rfl
  · split
    · rfl
    · rename_i b s' heq
      have hs : s'.engine.busy = true := by
        rw [← h, ← busy_obtainBody host call.site ps _ s, heq]
      unfold runObtained
      rw [Body.run_of_busy b host answer _ _ _ (by rw [busy_countObtained, hs])]

theorem attempt_of_busy (host : Host) (answer : Answering) (call : Call) (s : State)
    (h : s.engine.busy = true) :
    attempt host (answerWith host answer) call s = attempt host turnAway call s := by
  unfold attempt
  split
  · rfl
  · exact serve_of_busy host answer call _ s h

/-- Calls made by a body may as well be answered by `specialize` itself. -/
theorem answerWith_specialize (host : Host) :
    answerWith host (specialize host) = specialize host := by
  funext call s
  have h := attempt_of_busy host turnAway call ((countInvocation s).setBusy true) rfl
  simp only [specialize] at h ⊢
  rw [answerWith, answerWith, h]

end Loopsmith
