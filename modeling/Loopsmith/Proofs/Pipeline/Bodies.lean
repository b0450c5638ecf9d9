import Loopsmith.Pipeline.Basic

/-!
# Building is apart from running

Building a body and running one have nothing to do with each other, in two ways.

Building runs nothing.  The journal of a machine mixes what was reported and timed with what
was run, and only `Artifact.run` writes an entry of the last kind.  Everything else is quiet:
it leaves the record of runs and the caller's memory as they were, whatever it does to files,
stem numbers and the rest of the journal.  `Quiet` is reflexive and transitive, so a function
is quiet as soon as its steps are, and the steps of the pipeline are taken from the inside out
up to `quiet_compileAndLink`.

And building does not ask what bodies do.  Of a host it uses the tools alone, so two hosts with
the `SameTools` build alike; what a body returns cannot show in anything that is built.
-/

namespace Loopsmith

/-- No body ran between the two machines. -/
structure Machine.Quiet (m m' : Machine) : Prop where
  runs : m'.runs = m.runs
  memory : m'.memory = m.memory

namespace Machine

namespace Quiet

theorem refl (m : Machine) : Quiet m m :=
  ⟨rfl, rfl⟩

theorem trans {a b c : Machine} (h : Quiet a b) (h' : Quiet b c) : Quiet a c :=
  ⟨h'.runs.trans h.runs, h'.memory.trans h.memory⟩

theorem files {m m' : Machine} (h : Quiet m m') (files : FileTree) :
    Quiet m { m' with files } :=
  ⟨h.runs, h.memory⟩

theorem stem {m m' : Machine} (h : Quiet m m') (nextStem : Nat) :
    Quiet m { m' with nextStem } :=
  ⟨h.runs, h.memory⟩

theorem report {m m' : Machine} (h : Quiet m m') (e : Event) : Quiet m (m'.report e) := by
  refine ⟨?_, h.memory⟩
  rw [← h.runs]
  simp [Machine.report, Machine.note, Machine.runs]

theorem timing {m m' : Machine} (h : Quiet m m') (label : String) :
    Quiet m (m'.note (.timing label)) := by
  refine ⟨?_, h.memory⟩
  rw [← h.runs]
  simp [Machine.note, Machine.runs]

theorem reportAll {m m' : Machine} (h : Quiet m m') (es : List Event) :
    Quiet m (m'.reportAll es) := by
  refine ⟨?_, h.memory⟩
  rw [← h.runs]
  simp [Machine.reportAll, Machine.runs, List.filterMap_map]

end Quiet

theorem runs_note_run (m : Machine) (r : BodyRun) : (m.note (.run r)).runs = m.runs ++ [r] := by
  simp [Machine.note, Machine.runs]

end Machine

namespace Pipeline

open Machine (Quiet)

/-! ## Loading and storing -/

theorem quiet_link (p : Pipeline) (host : Host) (library : String) (origin : Origin)
    (m : Machine) : Quiet m (p.link host library origin m).2.2 := by
  have h := (Quiet.refl m).reportAll (loadEvents library (host.load p.loads m.files library))
  unfold link
  cases hl : host.load p.loads m.files library with
  | error e => simpa only [hl] using h
  | ok entry => simpa only [hl] using h

theorem quiet_linkStored (p : Pipeline) (host : Host) (s : Store) (key : String) (m : Machine) :
    Quiet m (p.linkStored host s key m).2.2 := by
  unfold linkStored
  split
  · exact (Quiet.refl m).report _
  · exact (Quiet.refl m).reportAll _
  · next found _ =>
      have h := quiet_link p host found.metadata.binary .store m
      split
      · next hl => rw [hl] at h; exact h.report _
      · next hl => rw [hl] at h; exact h.report _

theorem quiet_keep (host : Host) (s : Store) (rendered command library : String) (m : Machine) :
    Quiet m (keep host s rendered command library m) := by
  unfold keep
  dsimp only
  split
  · exact ((Quiet.refl m).files _).report _
  · exact ((Quiet.refl m).files _).report _

/-! ## Working directories -/

theorem quiet_finish (p : Pipeline) (dir : String) (m : Machine) : Quiet m (p.finish dir m) := by
  unfold finish
  split
  · exact (Quiet.refl m).report _
  · split
    · exact (Quiet.refl m).files _
    · exact (Quiet.refl m).report _

theorem quiet_writeLog (p : Pipeline) (l : Layout) (compiled : Except SpecializationError String)
    (m : Machine) : Quiet m (p.writeLog l compiled m) := by
  unfold writeLog
  split
  · exact Quiet.refl m
  · split
    · exact (Quiet.refl m).files _
    · exact (Quiet.refl m).report _

/-! ## Building -/

theorem quiet_buildIn (p : Pipeline) (host : Host) (l : Layout) (rendered command : String)
    (m : Machine) : Quiet m (p.buildIn host l rendered command m).2.2 := by
  unfold buildIn
  dsimp only
  generalize host.toolchain.compileShared command l.source l.library m.files = c
  -- the log is written before anything is made of the result
  have hlog := (((Quiet.refl m).files c.files).reportAll c.events).trans
    (quiet_writeLog { p with counts := { p.counts with compilations := p.counts.compilations + 1 } }
      l c.result _)
  split
  · exact hlog.trans (quiet_finish _ _ _)
  · have hlink := (hlog.report (.libraryCompiled l.library (host.duration "compile" / 1000000))).trans
      (quiet_link { p with counts := { p.counts with compilations := p.counts.compilations + 1 } }
        host l.library .compiled _)
    split
    · next hl => rw [hl] at hlink; exact hlink.trans (quiet_finish _ _ _)
    · next a p' m' hl =>
        rw [hl] at hlink
        refine (hlink.trans ?_).trans (quiet_finish _ _ _)
        split
        · exact quiet_keep host _ rendered command l.library m'
        · exact Quiet.refl m'

theorem quiet_build (p : Pipeline) (host : Host) (rendered command : String) (m : Machine) :
    Quiet m (p.build host rendered command m).2.2 := by
  unfold build
  split
  · exact (Quiet.refl m).files _
  · next dir files _ =>
      have h := ((Quiet.refl m).files files).stem (m.nextStem + 1)
      dsimp only
      split
      · exact h.files _
      · exact (h.files _).trans (quiet_buildIn p host _ rendered command _)

/-- Finding or building a library runs nothing, whatever comes of it. -/
theorem quiet_compileAndLink (p : Pipeline) (host : Host) (rendered command : String)
    (m : Machine) : Quiet m (p.compileAndLink host rendered command m).2.2 := by
  unfold compileAndLink
  split
  · exact quiet_build p host rendered command m
  · next s _ =>
      have h := quiet_linkStored p host s (Store.fingerprint rendered command) m
      split
      · next hl => rw [hl] at h; exact h
      · next hl => rw [hl] at h; exact h.trans (quiet_build _ host rendered command _)

end Pipeline

/-! ## The tools of a host -/

/-- The two hosts have the same tools for building: if they differ, then in how templates are
hashed and in what bodies do. -/
structure Host.SameTools (host host' : Host) : Prop where
  toolchain : host.toolchain = host'.toolchain
  load : host.load = host'.load
  temporaryDir : host.temporaryDir = host'.temporaryDir
  now : host.now = host'.now
  duration : host.duration = host'.duration

namespace Pipeline

variable {host host' : Host} (h : host.SameTools host') (p : Pipeline)

include h

theorem link_sameTools (library : String) (origin : Origin) (m : Machine) :
    p.link host library origin m = p.link host' library origin m := by
  simp only [link, h.load]

theorem linkStored_sameTools (s : Store) (key : String) (m : Machine) :
    p.linkStored host s key m = p.linkStored host' s key m := by
  unfold linkStored
  rcases s.lookup m.files key with _ | _ | found
  · rfl
  · rfl
  · dsimp only
    rw [link_sameTools h]

theorem keep_sameTools (s : Store) (rendered command library : String) (m : Machine) :
    keep host s rendered command library m = keep host' s rendered command library m := by
  simp only [keep, h.now, h.duration]

theorem buildIn_sameTools (l : Layout) (rendered command : String) (m : Machine) :
    p.buildIn host l rendered command m = p.buildIn host' l rendered command m := by
  simp only [buildIn, h.toolchain, h.duration, link_sameTools h, keep_sameTools h]

theorem build_sameTools (rendered command : String) (m : Machine) :
    p.build host rendered command m = p.build host' rendered command m := by
  simp only [build, makeWorkspace, h.temporaryDir, buildIn_sameTools h]

/-- Hosts with the same tools build alike. -/
theorem compileAndLink_sameTools (rendered command : String) (m : Machine) :
    p.compileAndLink host rendered command m = p.compileAndLink host' rendered command m := by
  simp only [compileAndLink, linkStored_sameTools h, build_sameTools h]

end Pipeline
end Loopsmith
