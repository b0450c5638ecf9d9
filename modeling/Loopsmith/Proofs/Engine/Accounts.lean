import Loopsmith.Proofs.Engine.Moments
import Loopsmith.Proofs.Pipeline.Counts

/-!
# The accounts

The engine, its cache and its pipeline count on their own, at different points of a call, and
whether a call was a hit is decided twice: by the engine before it asks for the body, and by the
cache when it is asked.  This file says that the books agree: every call is entered under one
heading, and what two of the three have counted is the same thing.

They do not agree in every moment.  From when a call has been counted until it is known what
becomes of it there is one entry too few, and the invariant `Tally.Balanced` takes that number as
an argument.  But in that time nobody can look: the engine is looked at between calls, or by a
running body, and there the number is zero.

The calls that were rejected because of their parameters are the only ones that the engine counts
as failed and the cache has not heard of.  No counter is kept of them, so they are counted in the
history.
-/

namespace Loopsmith

/-! ## Books that balance -/

/-- A call that has been counted, and that will be counted once more under what becomes of it. -/
def Stage.isOpen : Stage → Bool
  | arrived => true
  | claimed => true
  | running .. => false
  | leaving _ => false

/-- The number of calls of which it is not yet known what becomes of them. -/
def openCalls : List Frame → Nat
  | [] => 0
  | f :: fs => openCalls fs + if f.stage.isOpen then 1 else 0

def Deed.isMalformed : Deed → Bool
  | malformed => true
  | _ => false

/-- The counters agree, up to a number of open calls and with a number of malformed ones. -/
structure Tally.Balanced (t : Tally) (openCalls malformed : Nat) : Prop where
  calls : t.engine.invocations = t.engine.finished + t.engine.reentrant + t.engine.deferred +
    t.engine.cacheHits + t.engine.specialized + t.engine.failed + openCalls
  hits : t.engine.cacheHits = t.cache.hits
  entries : t.engine.specialized = t.cache.entries
  links : t.cache.entries = t.pipeline.links
  misses : t.cache.misses = t.cache.entries + t.cache.failures
  failures : t.engine.failed = t.cache.failures + malformed
  stored : t.pipeline.storeHits ≤ t.pipeline.links
  compiled : t.pipeline.links ≤ t.pipeline.storeHits + t.pipeline.compilations

theorem openCalls_deliver (status : Int32) (fs : List Frame) :
    openCalls (deliver status fs) = openCalls fs := by
  unfold deliver
  split
  · rfl
  · rfl

/-! ## Calls that need no body -/

namespace Tally.Balanced

variable {s : State} {openCalls openCalls' malformed malformed' : Nat}

/-- Entries in the engine's own books that leave its dealings with the cache alone. -/
theorem recount (h : s.engine.tally.Balanced openCalls malformed)
    {f : EngineCounts → EngineCounts}
    (hhits : (f s.engine.counts).cacheHits = s.engine.counts.cacheHits)
    (hspecialized : (f s.engine.counts).specialized = s.engine.counts.specialized)
    (hfailed : (f s.engine.counts).failed + malformed = s.engine.counts.failed + malformed')
    (hcalls : (f s.engine.counts).invocations + (s.engine.counts.finished +
        s.engine.counts.reentrant + s.engine.counts.deferred + s.engine.counts.failed + openCalls) =
      s.engine.counts.invocations + ((f s.engine.counts).finished +
        (f s.engine.counts).reentrant + (f s.engine.counts).deferred +
        (f s.engine.counts).failed + openCalls')) :
    (s.count f).engine.tally.Balanced openCalls' malformed' := by
  have hcalls' := h.calls
  have hfailures := h.failures
  simp only [Engine.tally] at hcalls' hfailures
  refine ⟨?_, hhits.trans h.hits, hspecialized.trans h.entries, h.links, h.misses, ?_, h.stored,
    h.compiled⟩
  · simp only [Engine.tally, State.count]
    omega
  · simp only [Engine.tally, State.count]
    omega

theorem setBusy (h : s.engine.tally.Balanced openCalls malformed) (busy : Bool) :
    (s.setBusy busy).engine.tally.Balanced openCalls malformed :=
  ⟨h.calls, h.hits, h.entries, h.links, h.misses, h.failures, h.stored, h.compiled⟩

theorem counted (h : s.engine.tally.Balanced openCalls malformed) :
    (countInvocation s).engine.tally.Balanced (openCalls + 1) malformed :=
  h.recount rfl rfl rfl (by dsimp only; omega)

theorem finished (h : s.engine.tally.Balanced (openCalls + 1) malformed) :
    (finishedCall s).2.engine.tally.Balanced openCalls malformed :=
  h.recount rfl rfl rfl (by dsimp only; omega)

theorem refused (h : s.engine.tally.Balanced (openCalls + 1) malformed) (call : Call) :
    (refusedCall call s).2.engine.tally.Balanced openCalls malformed :=
  h.recount rfl rfl rfl (by dsimp only; omega)

theorem deferred (h : s.engine.tally.Balanced (openCalls + 1) malformed) (e : Event) :
    ((s.count fun c => { c with deferred := c.deferred + 1 }).report e).engine.tally.Balanced
      openCalls malformed := by
  show (s.count fun c => { c with deferred := c.deferred + 1 }).engine.tally.Balanced _ _
  exact h.recount rfl rfl rfl (by dsimp only; omega)

/-- A call whose parameters cannot be read is a failure of which the cache does not hear. -/
theorem rejected (h : s.engine.tally.Balanced (openCalls + 1) malformed) (site : LoopSite)
    (e : SpecializationError) :
    (s.fail site e).engine.tally.Balanced openCalls (malformed + 1) := by
  show (s.count fun c => { c with failed := c.failed + 1 }).engine.tally.Balanced _ _
  exact h.recount rfl rfl (by dsimp only; omega) (by dsimp only; omega)

end Tally.Balanced

/-! ## Calls that ask for a body -/

theorem attempted_buildBody (host : Host) (site : LoopSite) (ps : Parameters)
    (w : Pipeline × Machine) :
    w.1.counts.Attempted (buildBody host site ps w).1.isOk
      (buildBody host site ps w).2.1.counts := by
  unfold buildBody Body.withParameters
  cases renderSource site.source ps with
  | error e => exact .unstarted
  | ok rendered =>
      have h := w.1.attempted_compileAndLink host rendered site.compiler w.2
      simp only [Body.link]
      split
      · next hl =>
          rw [hl] at h
          exact h
      · next hl =>
          rw [hl] at h
          exact h

theorem engine_countObtained (call : Call) (hit : Bool) (s : State) :
    (countObtained call hit s).engine = { s.engine with
      counts := if hit then { s.engine.counts with cacheHits := s.engine.counts.cacheHits + 1 }
        else { s.engine.counts with specialized := s.engine.counts.specialized + 1 } } := by
  unfold countObtained
  split
  · rfl
  · dsimp only
    rw [State.engine_time]
    rfl

namespace Tally.Balanced

variable {host : Host} {call : Call} {s s₁ : State} {ps : Parameters} {openCalls malformed : Nat}

/-- A call that obtains a body is counted by the engine as the cache counts it. -/
theorem obtained (h : s.engine.tally.Balanced (openCalls + 1) malformed) {b : Body}
    (hasks : Asks host call s ps (.ok b) s₁) :
    (s.obtained host call ps s₁).engine.tally.Balanced openCalls malformed := by
  obtain ⟨hcalls, hhits, hentries, hlinks, hmisses, hfailures, hstored, hcompiled⟩ := h
  simp only [Engine.tally] at *
  rw [State.obtained, engine_countObtained]
  cases hasks.fetches with
  | hit _ hb =>
      have hhit : s.engine.cache.contains (call.site.keyOf host.hash ps) = true := by
        rw [Cache.contains_eq_isSome_get?, hb]
        rfl
      simp only [hhit, if_true, Cache.size, Cache.length_touch] at *
      constructor <;> dsimp only <;> omega
  | made _ w hb hbuild =>
      have hmiss : s.engine.cache.contains (call.site.keyOf host.hash ps) = false := by
        rw [Cache.contains_eq_isSome_get?, hb]
        rfl
      have hattempted := attempted_buildBody host call.site ps (s.engine.pipeline, s.machine)
      rw [hbuild] at hattempted
      simp only [hmiss, Bool.false_eq_true, if_false, Cache.size, List.length_append,
        List.length_singleton] at *
      generalize w.1.counts = counts at hattempted ⊢
      cases hattempted with
      | stored => constructor <;> dsimp only <;> omega
      | compiled => constructor <;> dsimp only <;> omega

/-- A call that obtains none is a failure in the books of both. -/
theorem unbuilt (h : s.engine.tally.Balanced (openCalls + 1) malformed) {e : SpecializationError}
    (hasks : Asks host call s ps (.error e) s₁) :
    (s₁.fail call.site e).engine.tally.Balanced openCalls malformed := by
  obtain ⟨hcalls, hhits, hentries, hlinks, hmisses, hfailures, hstored, hcompiled⟩ := h
  simp only [Engine.tally] at *
  cases hasks.fetches with
  | failed _ w hb hbuild =>
      have hattempted := attempted_buildBody host call.site ps (s.engine.pipeline, s.machine)
      rw [hbuild] at hattempted
      simp only [State.fail, State.count, State.report, Cache.size] at *
      generalize w.1.counts = counts at hattempted ⊢
      cases hattempted with
      | failed => constructor <;> dsimp only <;> omega
      | unstarted => constructor <;> dsimp only <;> omega

end Tally.Balanced

/-! ## Every step -/

/-- The books of a moment balance, with the open calls and the malformed ones so far. -/
def Moment.Balanced (m : Moment) (history : List Deed) : Prop :=
  m.state.engine.tally.Balanced (openCalls m.frames) (history.countP Deed.isMalformed)

/-- **A step keeps the books in balance.** -/
theorem Moment.Balanced.step {settings : Settings} {pipeline : Pipeline} {machine : Machine}
    {m m' : Moment} {d : Deed} {history : List Deed}
    (hexplained : Explained (.fresh settings pipeline machine) m) (h : m.Balanced history)
    (hstep : Step m d m') : m'.Balanced (history ++ [d]) := by
  unfold Moment.Balanced at *
  rw [List.countP_append]
  cases hstep with
  | arrive => exact h.counted
  | finish =>
      rw [openCalls_deliver]
      exact h.finished
  | @refuse s host call fs =>
      rw [openCalls_deliver]
      exact h.refused call
  | claim => exact h.setBusy true
  | @reject s host call fs e => exact h.rejected call.site (.parameters e)
  | defer => exact h.deferred _
  | giveUp ps e s₁ hasks => exact h.unbuilt hasks
  | miss ps b s₁ hasks ha =>
      obtain ⟨a, ha'⟩ := hexplained.linked hasks
      rw [ha] at ha'
      cases ha'
  | enter ps b a s₁ hasks ha => exact h.obtained hasks
  | leave =>
      rw [State.engine_time]
      exact h
  | release =>
      rw [openCalls_deliver]
      exact h.setBusy false
  | world machine => exact h

/-- **The books balance in every moment of a new engine's life.** -/
theorem Unfolds.balanced {settings : Settings} {pipeline : Pipeline} {machine : Machine}
    (hnew : pipeline.counts = {}) {history : List Deed} {m : Moment}
    (h : Unfolds ⟨.fresh settings pipeline machine, []⟩ history m) : m.Balanced history := by
  induction h with
  | refl =>
      have htally : (State.fresh settings pipeline machine).engine.tally = ⟨{}, {}, {}, false⟩ :=
        congrArg (fun counts : PipelineCounts => Tally.mk {} {} counts false) hnew
      rw [Moment.Balanced, htally]
      exact ⟨rfl, rfl, rfl, rfl, rfl, rfl, Nat.le_refl 0, Nat.le_refl 0⟩
  | step hsteps hstep ih => exact ih.step (hsteps.explained rfl) hstep

/-! ## Moments in which someone can look -/

/-- No call is being answered, or a body is running: the moments in which the engine can be looked
at from outside. -/
def Moment.IsObservable (m : Moment) : Prop :=
  ∀ f ∈ m.frames.head?, ∃ a before answers pending, f.stage = .running a before answers pending

theorem Explained.openCalls_eq_zero {start : State} {m : Moment} (h : Explained start m)
    (hseen : m.IsObservable) : openCalls m.frames = 0 := by
  cases h with
  | between => rfl
  | arrived =>
      obtain ⟨a, before, answers, pending, hstage⟩ := hseen _ rfl
      cases hstage
  | claimed =>
      obtain ⟨a, before, answers, pending, hstage⟩ := hseen _ rfl
      cases hstage
  | running => rfl
  | nested =>
      obtain ⟨a, before, answers, pending, hstage⟩ := hseen _ rfl
      cases hstage
  | leaving => rfl

/-- **The three sets of counters agree**, between calls and while a body runs, in the life of an
engine whose pipeline was new and is used by the engine alone:

* every call counts as finished, refused, deferred, a hit, specialized or failed, and as one of
  them only;
* the engine's hits are the cache's, and the bodies it has specialized are the entries of the
  cache and the libraries that the pipeline has linked;
* a miss of the cache made an entry or was a failure;
* the failures of which the cache has not heard are the calls with malformed parameters;
* what came from the store was linked, and what was linked came from the store or a compiler. -/
theorem accounts_agree {settings : Settings} {pipeline : Pipeline} {machine : Machine}
    (hnew : pipeline.counts = {}) {history : List Deed} {m : Moment}
    (h : Unfolds ⟨.fresh settings pipeline machine, []⟩ history m) (hseen : m.IsObservable) :
    let engine := m.state.engine.counts
    let cache := m.state.engine.cache
    let built := m.state.engine.pipeline.counts
    engine.invocations = engine.finished + engine.reentrant + engine.deferred + engine.cacheHits +
      engine.specialized + engine.failed ∧
    engine.cacheHits = cache.hits ∧
    engine.specialized = cache.size ∧ cache.size = built.links ∧
    cache.misses = cache.size + cache.failures ∧
    engine.failed = cache.failures + history.countP Deed.isMalformed ∧
    built.storeHits ≤ built.links ∧ built.links ≤ built.storeHits + built.compilations := by
  have hbalanced := h.balanced hnew
  have hopen := (h.explained rfl).openCalls_eq_zero hseen
  rw [Moment.Balanced, hopen] at hbalanced
  exact ⟨hbalanced.calls, hbalanced.hits, hbalanced.entries, hbalanced.links, hbalanced.misses,
    hbalanced.failures, hbalanced.stored, hbalanced.compiled⟩

/-- A compilation that fails, a call that builds its body, one with malformed parameters and one
that finds the body: the engine has one failure more than the cache, and one call was
malformed. -/
theorem accounts_agree_after_failures :
    ∃ history s, Unfolds ⟨Sample.start, []⟩ history ⟨s, []⟩ ∧
      s.engine.counts.failed = s.engine.cache.failures + 1 ∧
      history.countP Deed.isMalformed = 1 := by
  obtain ⟨s, hserved, hfailed⟩ : ∃ s, Served Sample.start s ∧
      s.engine.counts.failed = s.engine.cache.failures + 1 := by
    refine ⟨_, .call Sample.host Sample.miscompiled (.call Sample.host Sample.malformed
      (.call Sample.host (Sample.call 0) (.call Sample.host Sample.miscompiled .start))), ?_⟩
    decide +kernel
  obtain ⟨history, h⟩ := (exists_unfolds_iff_served rfl).2 hserved
  obtain ⟨-, -, -, -, -, hmalformed, -, -⟩ := accounts_agree rfl h nofun
  exact ⟨history, s, h, hfailed, Nat.add_left_cancel (hmalformed.symm.trans hfailed)⟩

end Loopsmith
