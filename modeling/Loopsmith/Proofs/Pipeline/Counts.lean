import Loopsmith.Pipeline.Basic

/-!
# What finding or building a library counts

The pipeline has three counters, and they are raised at three places: when the compiler is asked,
when a library has been loaded, and when that library came from the store.  A single attempt can
pass several of these places, or the same one twice, as when a stored library cannot be loaded
and one is built after all.

Still, there are only four things that an attempt can add (`Attempted`), two if it succeeds and
two if it does not.  In particular it succeeds exactly if it counts a link.
-/

namespace Loopsmith

/-- What one attempt at a library can make of the counters; the flag says whether there is a
library in the end. -/
inductive PipelineCounts.Attempted (c : PipelineCounts) : Bool → PipelineCounts → Prop
  | stored : Attempted c true { c with links := c.links + 1, storeHits := c.storeHits + 1 }
  | compiled : Attempted c true { c with compilations := c.compilations + 1, links := c.links + 1 }
  /-- The compiler failed, or what it made could not be loaded. -/
  | failed : Attempted c false { c with compilations := c.compilations + 1 }
  /-- There was nowhere to compile. -/
  | unstarted : Attempted c false c

namespace Pipeline

open PipelineCounts (Attempted)

theorem counts_link (p : Pipeline) (host : Host) (library : String) (origin : Origin)
    (m : Machine) :
    (p.link host library origin m).2.1.counts =
      if (p.link host library origin m).1.isOk then
        { p.counts with links := p.counts.links + 1 }
      else p.counts := by
  unfold link
  cases host.load p.loads m.files library with
  | error e => rfl
  | ok entry => rfl

theorem counts_linkStored (p : Pipeline) (host : Host) (s : Store) (key : String) (m : Machine) :
    (p.linkStored host s key m).2.1.counts =
      if (p.linkStored host s key m).1.isSome then
        { p.counts with links := p.counts.links + 1, storeHits := p.counts.storeHits + 1 }
      else p.counts := by
  unfold linkStored
  split
  · rfl
  · rfl
  · next found _ =>
      have h := counts_link p host found.metadata.binary .store m
      split
      · next hl =>
          rw [hl] at h
          exact h
      · next hl =>
          rw [hl] at h
          dsimp only at h ⊢
          rw [h]
          rfl

theorem attempted_buildIn (p : Pipeline) (host : Host) (l : Layout) (rendered command : String)
    (m : Machine) :
    p.counts.Attempted (p.buildIn host l rendered command m).1.isOk
      (p.buildIn host l rendered command m).2.1.counts := by
  unfold buildIn
  dsimp only
  split
  · exact .failed
  · -- the compiler has been asked and counted, and its library is loaded
    generalize hp : { p with counts := { p.counts with
      compilations := p.counts.compilations + 1 } } = p'
    generalize hm : Machine.report _ _ = m'
    have h := counts_link p' host l.library .compiled m'
    split
    · next hl =>
        rw [hl, ← hp] at h
        dsimp only at h ⊢
        rw [h]
        exact .failed
    · next hl =>
        rw [hl, ← hp] at h
        dsimp only at h ⊢
        rw [h]
        exact .compiled

theorem attempted_build (p : Pipeline) (host : Host) (rendered command : String) (m : Machine) :
    p.counts.Attempted (p.build host rendered command m).1.isOk
      (p.build host rendered command m).2.1.counts := by
  unfold build
  split
  · exact .unstarted
  · dsimp only
    split
    · exact .unstarted
    · exact attempted_buildIn p host _ rendered command _

/-- **An attempt at a library adds one of four things to the counters.** -/
theorem attempted_compileAndLink (p : Pipeline) (host : Host) (rendered command : String)
    (m : Machine) :
    p.counts.Attempted (p.compileAndLink host rendered command m).1.isOk
      (p.compileAndLink host rendered command m).2.1.counts := by
  unfold compileAndLink
  split
  · exact attempted_build p host rendered command m
  · next s _ =>
      have h := counts_linkStored p host s (Store.fingerprint rendered command) m
      split
      · next hl =>
          rw [hl] at h
          dsimp only at h ⊢
          rw [h]
          exact .stored
      · next p' m' hl =>
          -- a stored library that cannot be used has counted nothing
          rw [hl] at h
          have hbuild := attempted_build p' host rendered command m'
          have hcounts : p'.counts = p.counts := h
          rw [hcounts] at hbuild
          exact hbuild

end Pipeline
end Loopsmith
