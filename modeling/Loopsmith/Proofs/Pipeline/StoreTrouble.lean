import Loopsmith.Host.Scripted
import Loopsmith.Proofs.Pipeline.Counts
import Loopsmith.Proofs.Pipeline.Stages
import Mathlib.Data.List.Basic

/-!
# Having a store is never worse than having none

A store is somebody else's directory as much as ours: its records may be missing, damaged or
written by another program, the libraries they name may be gone or of no use, and the disk may
refuse to take a new one.  None of this is an error of the call.  Looking for a stored library
changes no file, so whatever comes of the search, a build after it starts where a build without
a store would; and storing comes after the result is settled.

The one thing that the search leaves behind is that the loader may have been asked once more.
So the comparison is made for a loader that does not count.
-/

namespace Loopsmith

/-- The loader goes by the files alone, not by how often it has been asked. -/
def Host.LoadsByFiles (host : Host) : Prop :=
  ∀ n n' files path, host.load n files path = host.load n' files path

namespace Pipeline

/-! ## Building from the same start -/

section

variable {host : Host} {p p' : Pipeline} {m m' : Machine}

theorem SameStart.makeWorkspace (h : SameStart p p' m m') (host : Host) :
    p'.makeWorkspace host m'.files = p.makeWorkspace host m.files := by
  rw [h.files]
  simp only [Pipeline.makeWorkspace, h.workDir]

/-- Builds in the same layout and from the same files have the same result. -/
theorem SameStart.result_buildIn (h : SameStart p p' m m') (hload : host.LoadsByFiles)
    (l : Layout) (rendered command : String) :
    (p'.buildIn host l rendered command m').1 = (p.buildIn host l rendered command m).1 := by
  have hlogged : (p'.compiled host l command m').files = (p.compiled host l command m).files := by
    unfold compiled writeLog
    rw [h.files, h.saveIntermediates]
    dsimp only [Machine.reportAll]
    split
    · rfl
    · split
      · rfl
      · rfl
  rw [Pipeline.result_buildIn, Pipeline.result_buildIn, h.files, hlogged, hload p'.loads p.loads]

theorem SameStart.result_build (h : SameStart p p' m m') (hload : host.LoadsByFiles)
    (rendered command : String) :
    (p'.build host rendered command m').1 = (p.build host rendered command m).1 := by
  unfold build
  rw [h.makeWorkspace, h.nextStem]
  rcases p.makeWorkspace host m.files with ⟨e | dir, files⟩
  · rfl
  · dsimp only
    cases writeSources (Layout.of dir m.nextStem command) rendered files with
    | error e => rfl
    | ok files =>
        refine SameStart.result_buildIn ?_ hload _ rendered command
        exact ⟨h.workDir, h.saveIntermediates, rfl, rfl⟩

end

/-- With a store a call loads what it finds there, or it does what it would do without one. -/
theorem compileAndLink_store (p : Pipeline) (s : Store) {host : Host} (hload : host.LoadsByFiles)
    (rendered command : String) (m : Machine) :
    (({ p with store := some s } : Pipeline).compileAndLink host rendered command m).1 =
        (({ p with store := none } : Pipeline).compileAndLink host rendered command m).1 ∨
      ∃ a p' m', ({ p with store := some s } : Pipeline).compileAndLink host rendered command m =
          (.ok a, p', m') ∧ a.origin = .store ∧
        p'.counts.compilations = p.counts.compilations ∧ m'.files = m.files ∧
        m'.nextStem = m.nextStem := by
  generalize hq : ({ p with store := some s } : Pipeline) = q
  have hstart := sameStart_linkStored q host s (Store.fingerprint rendered command) m
  have hcounts := counts_linkStored q host s (Store.fingerprint rendered command) m
  have hqs : q.store = some s := by rw [← hq]
  unfold compileAndLink
  rw [hqs]
  dsimp only
  rcases hl : q.linkStored host s (Store.fingerprint rendered command) m with ⟨_ | a, p', m'⟩
  · -- nothing usable was found, and the build starts as it would without a store
    left
    rw [hl] at hstart
    have hplain : SameStart { p with store := none } p' m m' := by
      refine ⟨?_, ?_, hstart.files, hstart.nextStem⟩
      · rw [hstart.workDir, ← hq]
      · rw [hstart.saveIntermediates, ← hq]
    exact hplain.result_build hload rendered command
  · right
    rw [hl] at hstart hcounts
    refine ⟨a, p', m', rfl, ?_, ?_, hstart.files, hstart.nextStem⟩
    · exact origin_of_linkStored (by rw [hl])
    · have h : p'.counts = _ := hcounts
      rw [h, ← hq]
      rfl

/-- **Trouble with the store is never the trouble of the call.**  With a store, whatever is in
its directories, a call has the result that it has without one, or it loads a stored library and
asks no compiler.  So a call that succeeds without a store succeeds with it, and an error with
the store is the error without it. -/
theorem store_never_worse (p : Pipeline) (s : Store) {host : Host} (hload : host.LoadsByFiles)
    (rendered command : String) (m : Machine) :
    let plain := ({ p with store := none } : Pipeline).compileAndLink host rendered command m
    let kept := ({ p with store := some s } : Pipeline).compileAndLink host rendered command m
    (kept.1 = plain.1 ∨ ∃ a, kept.1 = .ok a ∧ a.origin = .store ∧
      kept.2.1.counts.compilations = p.counts.compilations ∧
      kept.2.2.files = m.files ∧ kept.2.2.nextStem = m.nextStem) ∧
    (∀ a, plain.1 = .ok a → ∃ a', kept.1 = .ok a') ∧
    ∀ e, kept.1 = .error e → plain.1 = .error e := by
  intro plain kept
  have hcases : kept.1 = plain.1 ∨ ∃ a, kept.1 = .ok a ∧ a.origin = .store ∧
      kept.2.1.counts.compilations = p.counts.compilations ∧
      kept.2.2.files = m.files ∧ kept.2.2.nextStem = m.nextStem := by
    rcases compileAndLink_store p s hload rendered command m with h | ⟨a, p', m', heq, h⟩
    · exact .inl h
    · have hkept : kept = (.ok a, p', m') := heq
      rw [hkept]
      exact .inr ⟨a, rfl, h⟩
  refine ⟨hcases, ?_, ?_⟩
  · intro a ha
    rcases hcases with h | ⟨a', ha', -⟩
    · exact ⟨a, h.trans ha⟩
    · exact ⟨a', ha'⟩
  · intro e he
    rcases hcases with h | ⟨a', ha', -⟩
    · exact h.symm.trans he
    · rw [ha'] at he
      cases he

/-! A store that cannot be used either way: the record of the source is no record, and there is
no directory for libraries. -/

namespace DamagedStore

def host : Host :=
  Scripted.host (fun _ => 0) "/tmp" (Scripted.load "no library") []

def store : Store := ⟨"/s"⟩

def pipeline : Pipeline :=
  { workDir := none, saveIntermediates := false, store := none }

def machine : Machine where
  files := ⟨[], [("tmp", .directory []), ("s", .directory [("metadata", .directory
    [("0b672923621a4382a20261389e83198f882e1626.yaml", .file [120])])])]⟩
  nextStem := 0
  memory := ⟨[]⟩
  journal := []

end DamagedStore

/-- The record of the source cannot be read and the library cannot be stored, but it is built. -/
theorem store_never_worse_damaged :
    DamagedStore.store.lookup DamagedStore.machine.files
        (Store.fingerprint "int n = 4;" "native-cc") = .error .unreadableRecord ∧
      ∃ a, (({ DamagedStore.pipeline with store := some DamagedStore.store } :
        Pipeline).compileAndLink DamagedStore.host "int n = 4;" "native-cc"
          DamagedStore.machine).1 = .ok a := by
  have hplain : (({ DamagedStore.pipeline with store := none } : Pipeline).compileAndLink
      DamagedStore.host "int n = 4;" "native-cc" DamagedStore.machine).1 =
        .ok ⟨16, "/tmp/doping-000000/spec_0.so", .compiled⟩ := by
    decide +kernel
  refine ⟨by decide +kernel, ?_⟩
  exact (store_never_worse DamagedStore.pipeline DamagedStore.store (fun _ _ _ _ => rfl)
    "int n = 4;" "native-cc" DamagedStore.machine).2.1 _ hplain

end Pipeline
end Loopsmith
