import Loopsmith.Proofs.Host.Scripted
import Loopsmith.Proofs.Pipeline.Remains

/-!
# Working directories are accounted for

A process makes one call after another, of one pipeline or of several, and each call that gets to the
compiler has a directory and a number of its own.  The directory is gone in the end, or it is kept
with the header, the source and the log in it, as the pipeline was told to.

Nothing keeps anybody from giving a directory of their own a name like that of a working directory.
If such a directory is missing on the way to the working directories, or has the store in it, a call
does touch it (`look_alikes_touched`).
-/

namespace Loopsmith

/-! ## Calls one after the other -/

/-- A call for a library. -/
structure BuildCall where
  pipeline : Pipeline
  host : Host
  machine : Machine
  rendered : String
  command : String

namespace BuildCall

variable (c : BuildCall)

def outcome : Except SpecializationError Artifact × Pipeline × Machine :=
  c.pipeline.compileAndLink c.host c.rendered c.command c.machine

/-- What the call works from. -/
def job : Job :=
  c.pipeline.job c.host c.rendered c.command c.machine

/-- The files after the call. -/
def after : FileTree :=
  c.outcome.2.2.files

/-- The call got to the compiler, and was counted there. -/
def Reached : Prop :=
  c.outcome.2.1.counts.compilations = c.pipeline.counts.compilations + 1

/-- The next call of the process.  It may be one of another pipeline, and anything may have
happened to the files since, but build numbers go on where they were. -/
def Follows (c c' : BuildCall) : Prop :=
  c'.machine.nextStem = c.outcome.2.2.nextStem

/-- What is left of the call is what should be. -/
structure Accounted : Prop where
  removed : c.pipeline.saveIntermediates = false ∨ ¬ c.Reached → c.job.LeavesNothing c.after
  kept : c.pipeline.saveIntermediates = true → c.Reached →
    ∃ name, c.job.LeavesDirectory c.after name

variable {c}

theorem nextStem_le (hwrites : c.host.WritesTarget) :
    c.machine.nextStem ≤ c.outcome.2.2.nextStem := by
  obtain ⟨asked, -, -, hstem⟩ :=
    c.pipeline.accountsFor_compileAndLink hwrites c.rendered c.command c.machine
  exact (Nat.le_add_right _ _).trans hstem

/-- Whether the compiler was asked shows in the counter. -/
theorem reached_iff {asked : Bool} (h : c.outcome.2.1.counts.compilations =
    c.pipeline.counts.compilations + asked.toNat) : c.Reached ↔ asked = true := by
  rw [Reached, h]
  cases asked <;> simp

/-- A call that gets to the compiler uses up its number. -/
theorem Reached.lt (h : c.Reached) (hwrites : c.host.WritesTarget) :
    c.machine.nextStem < c.outcome.2.2.nextStem := by
  obtain ⟨asked, -, hcompilations, hstem⟩ :=
    c.pipeline.accountsFor_compileAndLink hwrites c.rendered c.command c.machine
  rw [(reached_iff hcompilations).1 h] at hstem
  exact hstem

theorem accounted (hwrites : c.host.WritesTarget) : c.Accounted := by
  obtain ⟨asked, haccounts, hcompilations, -⟩ :=
    c.pipeline.accountsFor_compileAndLink hwrites c.rendered c.command c.machine
  have hreached := reached_iff hcompilations
  refine ⟨fun hor => haccounts.removed (hor.imp_right fun hnot => ?_), fun hsave h => ?_⟩
  · rw [hreached] at hnot
    exact Bool.eq_false_iff.2 hnot
  · exact haccounts.kept hsave (hreached.1 h)

/-- Between two calls no number is given back. -/
theorem ordered_of_follows {history : List BuildCall} (hwrites : ∀ c ∈ history, c.host.WritesTarget)
    (hchain : history.IsChain Follows) :
    history.Pairwise fun c c' => c.outcome.2.2.nextStem ≤ c'.machine.nextStem := by
  induction history with
  | nil => exact .nil
  | cons c rest ih =>
      have hrest := ih (fun d hd => hwrites d (List.mem_cons_of_mem c hd)) hchain.of_cons
      refine List.pairwise_cons.2 ⟨fun c' hc' => ?_, hrest⟩
      cases rest with
      | nil => cases hc'
      | cons d rest =>
          have hnext : d.machine.nextStem = c.outcome.2.2.nextStem :=
            (List.isChain_cons_cons.1 hchain).1
          rw [← hnext]
          rcases List.mem_cons.1 hc' with rfl | hc'
          · exact le_refl _
          · exact (nextStem_le (hwrites d (by simp))).trans ((List.pairwise_cons.1 hrest).1 c' hc')

end BuildCall

/-- **Working directories are accounted for.**  If files are not kept, or the compiler is not
reached, a call leaves nothing anywhere, besides the directories that were missing on the way to
where it works and the files of its store.  If they are kept and the compiler is reached, it leaves
one new directory, with the header, the source and the log in it.  The log is what the compiler said
when it was started on just these files.  Only if its path is too long there is none, and that takes
a build number with five digits or more, in a working directory with a path of some four thousand
bytes.  And no two calls of a process that reach the compiler use the same number. -/
theorem workspaces_accounted {history : List BuildCall}
    (hwrites : ∀ c ∈ history, c.host.WritesTarget) (hchain : history.IsChain BuildCall.Follows) :
    (∀ c ∈ history, c.Accounted) ∧
      history.Pairwise fun c c' => c.Reached → c'.Reached → c.job.number ≠ c'.job.number := by
  refine ⟨fun c hc => BuildCall.accounted (hwrites c hc), ?_⟩
  refine (BuildCall.ordered_of_follows hwrites hchain).imp_of_mem ?_
  intro c c' hc _ hle hreached _
  exact ((hreached.lt (hwrites c hc)).trans_le hle).ne

/-! ## Two calls that are accounted for, and two that touch a look-alike -/

namespace KeptFiles

def host : Host :=
  Scripted.host (fun _ => 0) "/tmp" (Scripted.load "no library") []

theorem host_writesTarget : host.WritesTarget :=
  Scripted.host_writesTarget _ _ _ _

/-- A build that succeeds, where the way to the working directories is missing. -/
def first : BuildCall where
  pipeline := { workDir := some "/w/here", saveIntermediates := true, store := none }
  host := host
  machine := ⟨⟨[], [("tmp", .directory [])]⟩, 0, ⟨[]⟩, []⟩
  rendered := "int n;"
  command := "native-cc"

/-- The next one, of another pipeline and with a command that names no compiler. -/
def second : BuildCall where
  pipeline := { workDir := none, saveIntermediates := true, store := none }
  host := host
  machine := ⟨⟨[], [("tmp", .directory [("doping-000000", .file [])])]⟩, 1, ⟨[]⟩, []⟩
  rendered := "int n;"
  command := "  "

theorem both_run : (first.outcome.2.1.counts.compilations = 1 ∧ first.outcome.2.2.nextStem = 1) ∧
    second.outcome.2.1.counts.compilations = 1 := by
  decide +kernel

theorem calls_writesTarget : ∀ c ∈ [first, second], c.host.WritesTarget := by
  intro c hc
  rcases List.mem_pair.1 hc with heq | heq
  · rw [heq]
    exact host_writesTarget
  · rw [heq]
    exact host_writesTarget

theorem calls_follow : [first, second].IsChain BuildCall.Follows := by
  exact List.isChain_cons_cons.2 ⟨both_run.1.2.symm, .singleton _⟩

end KeptFiles

open KeptFiles in
theorem workspaces_accounted_empty_command :
    first.Reached ∧ second.Reached ∧ (∃ name, first.job.LeavesDirectory first.after name) ∧
      (∃ name, second.job.LeavesDirectory second.after name) ∧
      first.job.number ≠ second.job.number := by
  have hfirst : first.Reached := both_run.1.1
  have hsecond : second.Reached := both_run.2
  obtain ⟨haccounted, hnumbers⟩ := workspaces_accounted calls_writesTarget calls_follow
  refine ⟨hfirst, hsecond, ?_, ?_, ?_⟩
  · exact (haccounted first List.mem_cons_self).kept rfl hfirst
  · exact (haccounted second (List.mem_pair.2 (.inr rfl))).kept rfl hsecond
  · exact List.pairwise_pair.1 hnumbers hfirst hsecond

namespace BuildCall

/-- Beside the working directories there is what there was, under all names that start like
theirs. -/
def Untouched (c : BuildCall) : Prop :=
  ∀ name rest, Pipeline.workspaceStart.toList <+: name.toList →
    c.after.node? (c.job.place ++ name :: rest) = c.job.files.node? (c.job.place ++ name :: rest)

end BuildCall

namespace LookAlike

/-- The way to the working directories leads through a directory that is missing. -/
def onTheWay : BuildCall where
  pipeline := { workDir := some "/work/doping-a/..", saveIntermediates := false, store := none }
  host := KeptFiles.host
  machine := ⟨⟨[], [("work", .directory [])]⟩, 0, ⟨[]⟩, []⟩
  rendered := "int n;"
  command := "native-cc"

/-- The store is kept beside the working directories. -/
def inStore : BuildCall where
  pipeline :=
    { workDir := some "/work"
      saveIntermediates := false
      store := some ⟨"/work/doping-store"⟩ }
  host := KeptFiles.host
  machine := ⟨⟨[], [("work", .directory [("doping-store", .directory
    [("binaries", .directory []), ("metadata", .directory [])])])]⟩, 0, ⟨[]⟩, []⟩
  rendered := "int n = 4;"
  command := "native-cc"

/-- The name it gives to the library. -/
def stored : String :=
  "0b672923621a4382a20261389e83198f882e1626.so"

theorem touched :
    (onTheWay.after.node? (onTheWay.job.place ++ ["doping-a"])).isSome = true ∧
      (inStore.after.node? (inStore.job.place ++ ["doping-store", "binaries", stored])).isSome =
        true := by
  decide +kernel

end LookAlike

open LookAlike in
theorem look_alikes_touched :
    (onTheWay.host.WritesTarget ∧ onTheWay.pipeline.saveIntermediates = false ∧
        onTheWay.pipeline.store = none ∧ ¬ onTheWay.Untouched) ∧
      inStore.host.WritesTarget ∧ inStore.pipeline.saveIntermediates = false ∧
        inStore.job.files.isDirectory inStore.job.workDir = true ∧ ¬ inStore.Untouched := by
  refine ⟨⟨KeptFiles.host_writesTarget, rfl, rfl, fun h => ?_⟩,
    KeptFiles.host_writesTarget, rfl, by decide +kernel, fun h => ?_⟩
  · have hsome := touched.1
    rw [h "doping-a" [] (by decide)] at hsome
    exact absurd hsome (by decide +kernel)
  · have hsome := touched.2
    rw [h "doping-store" ["binaries", stored] (by decide)] at hsome
    exact absurd hsome (by decide +kernel)

end Loopsmith
