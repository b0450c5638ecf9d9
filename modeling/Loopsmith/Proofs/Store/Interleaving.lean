import Loopsmith.Proofs.Store.Steps

/-!
# Many writers at once

What readers find in a store while processes store libraries in it, their steps in any order.

The staging file has its name from the key alone.  So writers of one key use the same file, and a
writer may move a file to its place that another one has just emptied and is still writing: a
reader then finds a part of a library, or a mixture of two.  Writers of different keys never get in
each other's way, and neither do those of one key as long as only one of them at a time is between
opening the staging file and moving it away (`Store.Crowd.Orderly`).  Then whatever stands in the
place of a library is a complete copy of what some writer of its key was given, and remains one.
-/

namespace Loopsmith
namespace Store

/-- The writer has opened the staging file of its key and not moved it yet. -/
def Stage.hasStaging : Stage → Bool
  | .copying _ _ _ | .copied => true
  | _ => false

namespace Crowd

variable {ι : Type}

/-- No two writers of one key have its staging file. -/
def Exclusive (c : Crowd ι) : Prop :=
  ∀ i j, i ≠ j → (c.writers i).key = (c.writers j).key →
    (c.writers i).stage.hasStaging = true → (c.writers j).stage.hasStaging = false

/-- At no time have two writers of one key its staging file. -/
def Orderly [DecidableEq ι] (s : Store) (c : Crowd ι) : List (Event ι) → Prop
  | [] => c.Exclusive
  | e :: events => c.Exclusive ∧ (c.next s e).Orderly s events

instance {n : Nat} (c : Crowd (Fin n)) : Decidable c.Exclusive :=
  inferInstanceAs (Decidable (∀ i j, i ≠ j → (c.writers i).key = (c.writers j).key →
    (c.writers i).stage.hasStaging = true → (c.writers j).stage.hasStaging = false))

instance decidableOrderly {n : Nat} (s : Store) (c : Crowd (Fin n)) :
    (events : List (Event (Fin n))) → Decidable (c.Orderly s events)
  | [] => inferInstanceAs (Decidable c.Exclusive)
  | e :: events =>
      have := decidableOrderly s (c.next s e) events
      inferInstanceAs (Decidable (c.Exclusive ∧ (c.next s e).Orderly s events))

/-- A writer of this key was given a library with these bytes. -/
def Gave (c : Crowd ι) (key : String) (bytes : List UInt8) : Prop :=
  ∃ i, (c.writers i).key = key ∧ (c.writers i).given = some bytes

/-- There is a library in the place for this key. -/
def Published (s : Store) (c : Crowd ι) (key : String) : Prop :=
  ∃ bytes, c.files.node? (s.place c.files.cwd .library key) = some (.file bytes)

/-- What the files have to do with a writer. -/
def Fits (s : Store) (c : Crowd ι) (w : Writer) : Prop :=
  match w.stage with
  | .waiting => w.given = none
  | .copying handle offset rest =>
      handle = some (s.place c.files.cwd .staged w.key) ∧
        ∃ written, c.files.node? (s.place c.files.cwd .staged w.key) = some (.file written) ∧
          offset = written.length ∧ w.given = some (written ++ rest)
  | .copied =>
      ∃ bytes, c.files.node? (s.place c.files.cwd .staged w.key) = some (.file bytes) ∧
        w.given = some bytes
  | .published => c.Published s w.key
  | .measured size =>
      c.Published s w.key ∧ ∃ library, c.Gave w.key library ∧ library.length = size
  | .ended _ => True

/-- What holds as long as the writers keep order. -/
structure Sound (s : Store) (c : Crowd ι) : Prop where
  isOpen : s.IsOpen c.files
  isKey : ∀ i, IsKey (c.writers i).key
  apart : ∀ i, s.place c.files.cwd .staged (c.writers i).key ≠
    Path.resolve c.files.cwd (c.writers i).deposit.library
  library : ∀ key bytes, c.files.node? (s.place c.files.cwd .library key) = some (.file bytes) →
    c.Gave key bytes
  record : ∀ key bytes, c.files.node? (s.place c.files.cwd .record key) = some (.file bytes) →
    c.Published s key ∧ ∃ i library, (c.writers i).key = key ∧ c.Gave key library ∧
      bytes = ((c.writers i).deposit.record s library.length).write
  fits : ∀ i, c.Fits s (c.writers i)

/-- What no one changes: what the writers are to store, and that a library is there. -/
structure Persists (s : Store) (c c' : Crowd ι) : Prop where
  cwd : c'.files.cwd = c.files.cwd
  deposit : ∀ i, (c'.writers i).deposit = (c.writers i).deposit
  published : ∀ key, c.Published s key → c'.Published s key

end Crowd

/-! ## What one step keeps -/

/-- Only files of this key have changed. -/
structure Touched (s : Store) (key : String) (t t' : FileTree) : Prop where
  cwd : t'.cwd = t.cwd
  directories : ∀ q, t.node? q = some .directory → t'.node? q = some .directory
  other : ∀ q, (∀ part, q ≠ s.place t.cwd part key) → t'.node? q = t.node? q

namespace Touched

variable {s : Store} {key : String} {t : FileTree}

theorem refl (s : Store) (key : String) (t : FileTree) : s.Touched key t t :=
  ⟨rfl, fun _ h => h, fun _ _ => rfl⟩

theorem of_set {part : Part} (htakes : t.Takes (s.place t.cwd part key)) (bytes : List UInt8) :
    s.Touched key t (t.set (s.place t.cwd part key) (.file bytes)) := by
  have hnode := FileTree.node?_set htakes (.file bytes)
  refine ⟨t.cwd_set _ _, ?_, ?_⟩
  · intro q hq
    have hne : q ≠ s.place t.cwd part key := by
      rintro rfl
      exact htakes.2 hq
    rw [hnode, if_neg hne, hq]
  · intro q hq
    rw [hnode, if_neg (hq part)]

theorem of_move {bytes : List UInt8}
    (hfile : t.node? (s.place t.cwd .staged key) = some (.file bytes))
    (htakes : t.Takes (s.place t.cwd .library key)) :
    s.Touched key t ((t.drop (s.place t.cwd .staged key)).put (s.place t.cwd .library key)
      (.file bytes)) := by
  have hnode := FileTree.node?_move hfile htakes
  refine ⟨by simp, ?_, ?_⟩
  · intro q hq
    have hlibrary : q ≠ s.place t.cwd .library key := by
      rintro rfl
      exact htakes.2 hq
    have hstaged : q ≠ s.place t.cwd .staged key := by
      rintro rfl
      rw [hfile] at hq
      cases hq
    rw [hnode, if_neg hlibrary, if_neg hstaged, hq]
  · intro q hq
    rw [hnode, if_neg (hq .library), if_neg (hq .staged)]

theorem node?_place {t' : FileTree} (h : s.Touched key t t') {key' : String} (hne : key' ≠ key)
    (part : Part) : t'.node? (s.place t.cwd part key') = t.node? (s.place t.cwd part key') := by
  refine h.other _ fun part' heq => ?_
  exact hne (place_injective heq).2

end Touched

namespace Crowd

variable {ι : Type} {s : Store} {c c' : Crowd ι} {i : ι}

theorem Fits.mono {w : Writer} (h : c.Fits s w) (hcwd : c'.files.cwd = c.files.cwd)
    (hstaged : w.stage.hasStaging = true →
      c'.files.node? (s.place c.files.cwd .staged w.key) =
        c.files.node? (s.place c.files.cwd .staged w.key))
    (hpublished : c.Published s w.key → c'.Published s w.key)
    (hgave : ∀ bytes, c.Gave w.key bytes → c'.Gave w.key bytes) : c'.Fits s w := by
  obtain ⟨d, stage, given⟩ := w
  cases stage with
  | waiting => exact h
  | copying handle offset rest =>
      obtain ⟨hhandle, written, hwritten, hrest⟩ := h
      rw [← hstaged rfl, ← hcwd] at hwritten
      rw [← hcwd] at hhandle
      exact ⟨hhandle, written, hwritten, hrest⟩
  | copied =>
      obtain ⟨bytes, hbytes, hgiven⟩ := h
      rw [← hstaged rfl, ← hcwd] at hbytes
      exact ⟨bytes, hbytes, hgiven⟩
  | published => exact hpublished h
  | measured size =>
      obtain ⟨hlibrary, library, hgiven, hsize⟩ := h
      exact ⟨hpublished hlibrary, library, hgave library hgiven, hsize⟩
  | ended result => exact trivial

/-- What a step of one writer changes: files of its key alone, the staging file only if no one else
is writing it, and a library or a record only for one that may be found. -/
structure Change (s : Store) (i : ι) (c c' : Crowd ι) : Prop where
  touched : s.Touched (c.writers i).key c.files c'.files
  others : ∀ j, j ≠ i → c'.writers j = c.writers j
  deposit : (c'.writers i).deposit = (c.writers i).deposit
  given : ∀ bytes, (c.writers i).given = some bytes → (c'.writers i).given = some bytes
  library :
    c'.files.node? (s.place c.files.cwd .library (c.writers i).key) =
        c.files.node? (s.place c.files.cwd .library (c.writers i).key) ∨
      ∃ bytes, (c'.writers i).given = some bytes ∧
        c'.files.node? (s.place c.files.cwd .library (c.writers i).key) = some (.file bytes)
  record :
    c'.files.node? (s.place c.files.cwd .record (c.writers i).key) =
        c.files.node? (s.place c.files.cwd .record (c.writers i).key) ∨
      c.Published s (c.writers i).key ∧ ∃ library, c.Gave (c.writers i).key library ∧
        c'.files.node? (s.place c.files.cwd .record (c.writers i).key) =
          some (.file ((c.writers i).deposit.record s library.length).write)
  staged :
    c'.files.node? (s.place c.files.cwd .staged (c.writers i).key) =
        c.files.node? (s.place c.files.cwd .staged (c.writers i).key) ∨
      ∀ j, j ≠ i → (c.writers j).key = (c.writers i).key → (c.writers j).stage.hasStaging = false

namespace Change

variable (h : Change s i c c')
include h

theorem deposit_eq (j : ι) : (c'.writers j).deposit = (c.writers j).deposit := by
  by_cases hj : j = i
  · rw [hj, h.deposit]
  · rw [h.others j hj]

theorem key_eq (j : ι) : (c'.writers j).key = (c.writers j).key := by
  rw [Writer.key, h.deposit_eq j, Writer.key]

theorem gave {key : String} {bytes : List UInt8} (hgave : c.Gave key bytes) : c'.Gave key bytes := by
  obtain ⟨j, hkey, hj⟩ := hgave
  refine ⟨j, (h.key_eq j).trans hkey, ?_⟩
  by_cases hji : j = i
  · rw [hji] at hj ⊢
    exact h.given bytes hj
  · rw [h.others j hji, hj]

theorem persists : c.Persists s c' := by
  refine ⟨h.touched.cwd, h.deposit_eq, ?_⟩
  rintro key ⟨bytes, hbytes⟩
  rw [Published, h.touched.cwd]
  by_cases hkey : key = (c.writers i).key
  · rw [hkey] at hbytes ⊢
    rcases h.library with hsame | ⟨new, -, hnew⟩
    · exact ⟨bytes, hsame.trans hbytes⟩
    · exact ⟨new, hnew⟩
  · exact ⟨bytes, (h.touched.node?_place hkey .library).trans hbytes⟩

/-- A library is the one that was there, or the one that the writer was given. -/
theorem gave_of_library (hc : c.Sound s) {key : String} {bytes : List UInt8}
    (hbytes : c'.files.node? (s.place c'.files.cwd .library key) = some (.file bytes)) :
    c'.Gave key bytes := by
  rw [h.touched.cwd] at hbytes
  by_cases hkey : key = (c.writers i).key
  · rw [hkey] at hbytes ⊢
    rcases h.library with hsame | ⟨new, hnew, hfile⟩
    · exact h.gave (hc.library _ _ (hsame.symm.trans hbytes))
    · rw [hfile] at hbytes
      cases hbytes
      exact ⟨i, h.key_eq i, hnew⟩
  · exact h.gave (hc.library _ _ ((h.touched.node?_place hkey .library).symm.trans hbytes))

/-- A record is the one that was there, or the one that the writer has to write. -/
theorem record_of_node? (hc : c.Sound s) {key : String} {bytes : List UInt8}
    (hbytes : c'.files.node? (s.place c'.files.cwd .record key) = some (.file bytes)) :
    c'.Published s key ∧ ∃ j library, (c'.writers j).key = key ∧ c'.Gave key library ∧
      bytes = ((c'.writers j).deposit.record s library.length).write := by
  rw [h.touched.cwd] at hbytes
  have hold : c.files.node? (s.place c.files.cwd .record key) = some (.file bytes) →
      c'.Published s key ∧ ∃ j library, (c'.writers j).key = key ∧ c'.Gave key library ∧
        bytes = ((c'.writers j).deposit.record s library.length).write := by
    intro hsame
    obtain ⟨hpublished, j, library, hj, hgave, hbytes⟩ := hc.record key bytes hsame
    refine ⟨h.persists.published key hpublished, j, library, (h.key_eq j).trans hj, h.gave hgave, ?_⟩
    rw [h.deposit_eq j, hbytes]
  by_cases hkey : key = (c.writers i).key
  · rw [hkey] at hbytes
    rcases h.record with hsame | ⟨hpublished, library, hgave, hnew⟩
    · rw [hsame, ← hkey] at hbytes
      exact hold hbytes
    · rw [hnew] at hbytes
      rw [← hkey] at hpublished hgave
      refine ⟨h.persists.published key hpublished, i, library, (h.key_eq i).trans hkey.symm,
        h.gave hgave, ?_⟩
      rw [h.deposit]
      exact (Node.file.inj (Option.some.inj hbytes)).symm
  · exact hold ((h.touched.node?_place hkey .record).symm.trans hbytes)

/-- Who writes a staging file finds it as it was. -/
theorem node?_staged {j : ι} (hj : j ≠ i) (hhas : (c.writers j).stage.hasStaging = true) :
    c'.files.node? (s.place c.files.cwd .staged (c.writers j).key) =
      c.files.node? (s.place c.files.cwd .staged (c.writers j).key) := by
  by_cases hkey : (c.writers j).key = (c.writers i).key
  · rw [hkey]
    rcases h.staged with hsame | hnone
    · exact hsame
    · rw [hnone j hj hkey] at hhas
      cases hhas
  · exact h.touched.node?_place hkey .staged

end Change

theorem Sound.change (hc : c.Sound s) (h : Change s i c c') (hfits : c'.Fits s (c'.writers i)) :
    c'.Sound s ∧ c.Persists s c' := by
  have hopen := isOpen_of_directories h.touched.cwd
    (fun _ q _ hq => h.touched.directories q hq) hc.isOpen
  refine ⟨⟨hopen, ?_, ?_, fun _ _ => h.gave_of_library hc, fun _ _ => h.record_of_node? hc, ?_⟩,
    h.persists⟩
  · intro j
    rw [h.key_eq j]
    exact hc.isKey j
  · intro j
    rw [h.touched.cwd, h.key_eq j, h.deposit_eq j]
    exact hc.apart j
  · intro j
    by_cases hj : j = i
    · rw [hj]
      exact hfits
    · rw [h.others j hj]
      exact (hc.fits j).mono h.touched.cwd (h.node?_staged hj) (h.persists.published _)
        fun _ => h.gave

/-- A step that changes no file. -/
theorem Sound.stay (h : c.Sound s) (hfiles : c'.files = c.files)
    (hothers : ∀ j, j ≠ i → c'.writers j = c.writers j)
    (hdeposit : (c'.writers i).deposit = (c.writers i).deposit)
    (hgiven : (c'.writers i).given = (c.writers i).given)
    (hfits : c.Fits s (c.writers i) → c'.Fits s (c'.writers i)) :
    c'.Sound s ∧ c.Persists s c' := by
  refine h.change ⟨?_, hothers, hdeposit, ?_, .inl ?_, .inl ?_, .inl ?_⟩ (hfits (h.fits i))
  · rw [hfiles]
    exact .refl s _ _
  · intro bytes hbytes
    rw [hgiven, hbytes]
  · rw [hfiles]
  · rw [hfiles]
  · rw [hfiles]

/-- A writer that moves a file does not disturb those who write another one. -/
theorem Sound.beside_eq (h : c.Sound s) (hexclusive : c.Exclusive) {w : Writer} {t : FileTree}
    (htook : (c.writers i).Took s c.files w t) {j : ι} (hj : j ≠ i) :
    (c.writers j).beside s c.files.cwd w = c.writers j := by
  have hkey : w.key = (c.writers i).key := congrArg Deposit.key htook.deposit_eq
  have hi := h.isKey i
  unfold Writer.beside
  split
  · next hpublished =>
      have hcopied := htook.copied_of_published hpublished
      rw [hkey, stagingPath_eq s hi, resolve_path s _ .staged hi.no_slash, binaryPath_eq,
        resolve_path s _ .library hi.no_slash]
      unfold Writer.moved
      split
      · next p offset rest hstage =>
          have hfits := h.fits j
          rw [Fits, hstage] at hfits
          have hp : p = s.place c.files.cwd .staged (c.writers j).key :=
            Option.some.inj hfits.1
          have hne : (c.writers j).key ≠ (c.writers i).key := by
            intro heq
            have hfree := hexclusive i j (Ne.symm hj) heq.symm (by rw [hcopied]; rfl)
            rw [hstage] at hfree
            cases hfree
          have hplace : ∀ part, p ≠ s.place c.files.cwd part (c.writers i).key := by
            intro part heq
            rw [hp] at heq
            exact hne (place_injective heq).2
          dsimp only
          rw [if_neg (hplace .staged), if_neg (hplace .library), Writer.advance, ← hstage]
      · rfl
  · rfl

section

variable (h : c.Sound s) (hothers : ∀ j, j ≠ i → c'.writers j = c.writers j)
include h hothers

/-- A writer opens the staging file or writes into it. -/
theorem Sound.stage {bytes rest : List UInt8}
    (hfree : ∀ j, j ≠ i → (c.writers j).key = (c.writers i).key →
      (c.writers j).stage.hasStaging = false)
    (htakes : c.files.Takes (s.place c.files.cwd .staged (c.writers i).key))
    (hfiles : c'.files =
      c.files.set (s.place c.files.cwd .staged (c.writers i).key) (.file bytes))
    (hdeposit : (c'.writers i).deposit = (c.writers i).deposit)
    (hgiven : ∀ b, (c.writers i).given = some b → (c'.writers i).given = some b)
    (hstage : (c'.writers i).stage =
      .copying (some (s.place c.files.cwd .staged (c.writers i).key)) bytes.length rest)
    (hrest : (c'.writers i).given = some (bytes ++ rest)) :
    c'.Sound s ∧ c.Persists s c' := by
  have hnode := FileTree.node?_set htakes (.file bytes)
  have hkey : (c'.writers i).key = (c.writers i).key := congrArg Deposit.key hdeposit
  have hother : ∀ part : Part, part ≠ .staged →
      c'.files.node? (s.place c.files.cwd part (c.writers i).key) =
        c.files.node? (s.place c.files.cwd part (c.writers i).key) := by
    intro part hpart
    rw [hfiles, hnode, if_neg fun heq => hpart (place_injective heq).1]
  refine h.change ⟨?_, hothers, hdeposit, hgiven, .inl (hother _ (by decide)),
    .inl (hother _ (by decide)), .inr hfree⟩ ?_
  · rw [hfiles]
    exact .of_set htakes bytes
  · rw [Fits, hstage, hkey, hfiles, FileTree.cwd_set]
    exact ⟨rfl, bytes, (hnode _).trans (if_pos rfl), rfl, hrest⟩

/-- A writer moves the staging file to its place. -/
theorem Sound.publish (hexclusive : c.Exclusive) (hstage : (c.writers i).stage = .copied)
    (hrename : c.files.rename (s.stagingPath (c.writers i).key) (s.binaryPath (c.writers i).key) =
      .ok c'.files)
    (hw : c'.writers i = (c.writers i).advance .published) :
    c'.Sound s ∧ c.Persists s c' := by
  have hkey := h.isKey i
  have hfits := h.fits i
  rw [Fits, hstage] at hfits
  obtain ⟨bytes, hbytes, hgiven⟩ := hfits
  have hbytes' := hbytes
  rw [← resolve_path s _ .staged hkey.no_slash, ← stagingPath_eq s hkey] at hbytes'
  obtain ⟨-, htakes, hfiles⟩ := FileTree.rename_eq_ok hbytes' hrename
  rw [stagingPath_eq s hkey, resolve_path s _ .staged hkey.no_slash, binaryPath_eq,
    resolve_path s _ .library hkey.no_slash] at hfiles
  rw [binaryPath_eq, resolve_path s _ .library hkey.no_slash] at htakes
  have hnode := FileTree.node?_move hbytes htakes
  have hlibrary : c'.files.node? (s.place c.files.cwd .library (c.writers i).key) =
      some (.file bytes) := by
    rw [hfiles, hnode, if_pos rfl]
  have hgiven' : (c'.writers i).given = some bytes := by
    rw [hw, ← hgiven]
    rfl
  refine h.change ⟨?_, hothers, by rw [hw]; rfl, ?_, .inr ⟨bytes, hgiven', hlibrary⟩, .inl ?_,
    .inr ?_⟩ ?_
  · rw [hfiles]
    exact .of_move hbytes htakes
  · intro b hb
    rw [hgiven', ← hgiven, hb]
  · have hne : ∀ part : Part, part ≠ .record → s.place c.files.cwd .record (c.writers i).key ≠
        s.place c.files.cwd part (c.writers i).key :=
      fun part hpart heq => hpart (place_injective heq).1.symm
    rw [hfiles, hnode, if_neg (hne .library (by decide)), if_neg (hne .staged (by decide))]
  · intro j hj hjkey
    exact hexclusive i j (Ne.symm hj) hjkey.symm (by rw [hstage]; rfl)
  · have hcwd : c'.files.cwd = c.files.cwd := by
      rw [hfiles, FileTree.cwd_put, FileTree.cwd_drop]
    rw [hw]
    refine ⟨bytes, ?_⟩
    rw [hcwd]
    exact hlibrary

/-- A writer measures the library. -/
theorem Sound.measure {size : Nat}
    (hsize : librarySize c.files (s.binaryPath (c.writers i).key) = .ok size)
    (hfiles : c'.files = c.files) (hw : c'.writers i = (c.writers i).advance (.measured size)) :
    c'.Sound s ∧ c.Persists s c' := by
  have hkey := h.isKey i
  obtain ⟨bytes, hbytes, hlength⟩ := exists_of_librarySize hsize
  rw [binaryPath_eq, resolve_path s _ .library hkey.no_slash] at hbytes
  obtain ⟨j, hj, hgiven⟩ := h.library _ _ hbytes
  refine h.stay hfiles hothers (by rw [hw]; rfl) (by rw [hw]; rfl) fun _ => ?_
  have hgave : c'.Gave (c.writers i).key bytes := by
    by_cases hji : j = i
    · refine ⟨i, by rw [hw]; rfl, ?_⟩
      rw [hw, ← hgiven, hji]
      rfl
    · exact ⟨j, by rw [hothers j hji, hj], by rw [hothers j hji, hgiven]⟩
  rw [hw]
  refine ⟨⟨bytes, ?_⟩, bytes, hgave, hlength⟩
  rw [hfiles]
  exact hbytes

/-- A writer writes the record. -/
theorem Sound.enter {size : Nat} (hstage : (c.writers i).stage = .measured size)
    (hwrite : ((c.writers i).deposit.record s size).writeTo c.files
      (s.metadataPath (c.writers i).key) = .ok c'.files)
    {result : Option (Except StoreError Entry)}
    (hw : c'.writers i = (c.writers i).advance (.ended result)) :
    c'.Sound s ∧ c.Persists s c' := by
  have hkey := h.isKey i
  have hfits := h.fits i
  rw [Fits, hstage] at hfits
  obtain ⟨hpublished, library, hgave, hsize⟩ := hfits
  obtain ⟨-, htakes, hfiles⟩ := FileTree.writeFile_eq_ok (writeFile_of_writeTo hwrite)
  rw [metadataPath_eq, resolve_path s _ .record hkey.no_slash] at htakes hfiles
  have hnode := FileTree.node?_set htakes (.file ((c.writers i).deposit.record s size).write)
  have hother : ∀ part : Part, part ≠ .record →
      c'.files.node? (s.place c.files.cwd part (c.writers i).key) =
        c.files.node? (s.place c.files.cwd part (c.writers i).key) := by
    intro part hpart
    rw [hfiles, hnode, if_neg fun heq => hpart (place_injective heq).1]
  have hrecord : c'.files.node? (s.place c.files.cwd .record (c.writers i).key) =
      some (.file ((c.writers i).deposit.record s library.length).write) := by
    rw [hfiles, hnode, if_pos rfl, hsize]
  refine h.change ⟨?_, hothers, by rw [hw]; rfl, fun b hb => by rw [hw]; exact hb,
    .inl (hother _ (by decide)), .inr ⟨hpublished, library, hgave, hrecord⟩,
    .inl (hother _ (by decide))⟩ (by rw [hw]; exact trivial)
  rw [hfiles]
  exact .of_set htakes _

end

/-- A step of one writer keeps the store sound, and no library gets lost. -/
theorem Sound.step (h : c.Sound s) (hexclusive : c.Exclusive) (hexclusive' : c'.Exclusive)
    (htook : (c.writers i).Took s c.files (c'.writers i) c'.files)
    (hothers : ∀ j, j ≠ i → c'.writers j = c.writers j) :
    c'.Sound s ∧ c.Persists s c' := by
  have hkey := h.isKey i
  have hfits := h.fits i
  have hdeposit := htook.deposit_eq
  generalize hw : c'.writers i = w at htook hdeposit
  generalize ht : c'.files = t at htook
  cases htook with
  | failed e =>
      refine h.stay ht hothers (by rw [hw, hdeposit]) (by rw [hw]; rfl) fun _ => ?_
      rw [hw]
      exact trivial
  | @opened p bytes rest hstage hp htakes hread hrest =>
      rw [stagingPath_eq s hkey, resolve_path s _ .staged hkey.no_slash] at hp
      subst hp
      rw [Fits, hstage] at hfits
      refine h.stage hothers ?_ htakes ht (by rw [hw]) ?_ (by rw [hw]; rfl) ?_
      · intro j hj hjkey
        have hkeys : (c'.writers i).key = (c'.writers j).key := by
          rw [hothers j hj, hjkey, hw]
          rfl
        have hfree := hexclusive' i j (Ne.symm hj) hkeys (by rw [hw]; rfl)
        rwa [hothers j hj] at hfree
      · intro b hb
        rw [hfits] at hb
        cases hb
      · rw [hw, hrest (h.apart i), List.nil_append]
  | @wrote handle offset bytes rest hstage hbytes =>
      rw [Fits, hstage] at hfits
      obtain ⟨hhandle, written, hwritten, hoffset, hgiven⟩ := hfits
      have hset : c'.files = c.files.set (s.place c.files.cwd .staged (c.writers i).key)
          (.file (written ++ bytes)) := by
        rw [ht, hhandle, FileTree.writeAt_of_file hwritten offset hbytes, hoffset,
          FileTree.patched_length]
      have hnext : (c'.writers i).stage =
          .copying (some (s.place c.files.cwd .staged (c.writers i).key)) (written ++ bytes).length
            rest := by
        rw [hw, hhandle, hoffset, List.length_append]
        rfl
      refine h.stage hothers ?_ (FileTree.takes_of_node?_eq_file hwritten) hset (by rw [hw, hdeposit])
        ?_ hnext ?_
      · intro j hj hjkey
        exact hexclusive i j (Ne.symm hj) hjkey.symm (by rw [hstage]; rfl)
      · intro b hb
        rw [hw]
        exact hb
      · rw [hw, List.append_assoc, ← hgiven]
        rfl
  | copied hstage =>
      refine h.stay ht hothers (by rw [hw, hdeposit]) (by rw [hw]; rfl) fun hfits => ?_
      rw [Fits, hstage] at hfits
      obtain ⟨-, written, hwritten, -, hgiven⟩ := hfits
      rw [List.append_nil] at hgiven
      rw [hw, Fits, ht]
      exact ⟨written, hwritten, hgiven⟩
  | published hstage hrename =>
      rw [← ht] at hrename
      exact h.publish hothers hexclusive hstage hrename hw
  | measured hstage hsize => exact h.measure hothers hsize ht hw
  | recorded hstage hwrite =>
      rw [← ht] at hwrite
      exact h.enter hothers hstage hwrite hw
  | rested hstage =>
      refine h.stay ht hothers (by rw [hw]) (by rw [hw]) fun _ => ?_
      rw [hw, Fits, hstage]
      exact trivial

/-! ## Beginning, and looking up -/

/-- The store is empty and no one has begun.  The keys can be names of files, and no library is in
the place that it would first be copied to. -/
structure Begins (s : Store) (c : Crowd ι) : Prop where
  fresh : s.Fresh c.files
  waiting : ∀ i, (c.writers i).stage = .waiting ∧ (c.writers i).given = none
  isKey : ∀ i, IsKey (c.writers i).key
  apart : ∀ i, s.place c.files.cwd .staged (c.writers i).key ≠
    Path.resolve c.files.cwd (c.writers i).deposit.library

theorem Begins.sound (h : c.Begins s) : c.Sound s := by
  refine ⟨h.fresh.isOpen, h.isKey, h.apart, ?_, ?_, ?_⟩
  · intro key bytes hbytes
    exact absurd hbytes (h.fresh.empty .library _ _)
  · intro key bytes hbytes
    exact absurd hbytes (h.fresh.empty .record _ _)
  · intro i
    obtain ⟨hstage, hgiven⟩ := h.waiting i
    rw [Fits, hstage]
    exact hgiven

/-- The records that the writers can have written read back as they were written. -/
def ReadBack (s : Store) (c : Crowd ι) : Prop :=
  ∀ i library, c.Gave (c.writers i).key library →
    Metadata.read? ((c.writers i).deposit.record s library.length).write =
      some ((c.writers i).deposit.record s library.length)

theorem Sound.of_lookup (h : c.Sound s) (hyaml : c.ReadBack s) {key : String} {found : Entry}
    (hkey : '/' ∉ key.toList) (hfound : s.lookup c.files key = .ok (some found)) :
    found.metadata.binary = s.binaryPath key ∧ c.files.Passes (s.binaryPath key) ∧
      c.Published s key := by
  obtain ⟨-, hbinary, bytes, hread, hmetadata⟩ := lookup_eq_some_iff.1 hfound
  rw [metadataPath_eq, h.isOpen.readFile_eq_ok_iff .record hkey] at hread
  obtain ⟨hpublished, i, library, hi, hgave, hbytes⟩ := h.record key bytes hread.2
  have hrecord : found.metadata.binary = s.binaryPath key := by
    rw [hbytes, hyaml i library (hi.symm ▸ hgave), Option.some_inj] at hmetadata
    rw [← hmetadata, ← hi]
    exact Deposit.binary_record _ s _
  rw [hrecord] at hbinary
  exact ⟨hrecord, (FileTree.hasPath_iff.1 hbinary).1, hpublished⟩

/-! ## What a whole run keeps -/

variable [DecidableEq ι]

theorem Sound.next (h : c.Sound s) (e : Event ι) (hexclusive : c.Exclusive)
    (hexclusive' : (c.next s e).Exclusive) :
    (c.next s e).Sound s ∧ c.Persists s (c.next s e) := by
  cases e with
  | step i n =>
      have htook := Writer.took_step s n (c.writers i) c.files
      have hself : ((c.writers i).step s n c.files).1 = (c.next s (.step i n)).writers i := by
        rw [writers_next_step, if_pos rfl]
      refine h.step hexclusive hexclusive' (i := i) ?_ ?_
      · rw [← hself]
        exact htook
      · intro j hj
        rw [writers_next_step, if_neg hj]
        exact h.beside_eq hexclusive htook hj
  | kill i =>
      have hself : (c.next s (.kill i)).writers i = (c.writers i).advance (.ended none) :=
        if_pos rfl
      refine h.stay (i := i) rfl (fun j hj => if_neg hj) (by rw [hself]; rfl) (by rw [hself]; rfl)
        fun _ => ?_
      rw [hself]
      exact trivial

theorem Sound.run {events : List (Event ι)} (h : c.Sound s) (horder : c.Orderly s events) :
    (c.run s events).Sound s ∧ c.Persists s (c.run s events) := by
  induction events generalizing c with
  | nil => exact ⟨h, rfl, fun _ => rfl, fun _ hkey => hkey⟩
  | cons e events ih =>
      have hexclusive' : (c.next s e).Exclusive := by
        have hrest := horder.2
        cases events with
        | nil => exact hrest
        | cons e' events => exact hrest.1
      obtain ⟨hnext, hkept⟩ := h.next e horder.1 hexclusive'
      obtain ⟨hrun, hkept'⟩ := ih hnext horder.2
      refine ⟨hrun, hkept'.cwd.trans hkept.cwd, ?_, ?_⟩
      · intro i
        rw [run_cons, hkept'.deposit, hkept.deposit]
      · intro key hkey
        exact hkept'.published key (hkept.published key hkey)

theorem Orderly.append {before after : List (Event ι)} (h : c.Orderly s (before ++ after)) :
    c.Orderly s before ∧ (c.run s before).Orderly s after := by
  induction before generalizing c with
  | nil =>
      refine ⟨?_, h⟩
      cases after with
      | nil => exact h
      | cons e after => exact h.1
  | cons e before ih =>
      obtain ⟨hbefore, hafter⟩ := ih h.2
      exact ⟨⟨h.1, hbefore⟩, hafter⟩

end Crowd

/-- **Readers get complete libraries as long as the writers keep order.**  From an empty store on,
any number of processes store libraries, their steps in any order, and some of them may be killed.
At no time are two of them that have the same key between opening the staging file and moving it.
Then whenever a lookup of a key finds an entry, the file it names is, at that moment and at every
later one, a complete copy of a library that some process was given to store under this key. -/
theorem readers_get_complete_library {ι : Type} [DecidableEq ι] {s : Store} {c : Crowd ι}
    {before after : List (Event ι)} {key : String} {found : Entry} (hstart : c.Begins s)
    (horder : c.Orderly s (before ++ after)) (hyaml : (c.run s before).ReadBack s)
    (hkey : '/' ∉ key.toList) (hfound : s.lookup (c.run s before).files key = .ok (some found)) :
    ∃ i library, (c.writers i).key = key ∧
      ((c.run s (before ++ after)).writers i).given = some library ∧
      (c.run s (before ++ after)).files.readFile found.metadata.binary = .ok library := by
  obtain ⟨hbefore, hafter⟩ := horder.append
  obtain ⟨hsound, hkept⟩ := hstart.sound.run hbefore
  obtain ⟨hsound', hkept'⟩ := hsound.run hafter
  obtain ⟨hbinary, hpasses, hpublished⟩ := hsound.of_lookup hyaml hkey hfound
  obtain ⟨library, hlibrary⟩ := hkept'.published key hpublished
  obtain ⟨i, hi, hgiven⟩ := hsound'.library key library hlibrary
  have hspelled := hpasses.1
  rw [Crowd.run_append]
  refine ⟨i, library, ?_, hgiven, ?_⟩
  · rw [← hi, Writer.key, Writer.key, hkept'.deposit, hkept.deposit]
  · rw [← hkept'.cwd] at hspelled
    rw [hbinary, binaryPath_eq, hsound'.isOpen.readFile_eq_ok_iff .library hkey, ← binaryPath_eq]
    exact ⟨hspelled, hlibrary⟩

/-! ## Two writers of one key -/

/-- Once a record is written it is found, if its library is there. -/
theorem Writer.Took.lookup_eq {s : Store} {w w' : Writer} {t t' : FileTree} {size : Nat} {e : Entry}
    (h : w.Took s t w' t') (hstage : w.stage = .measured size)
    (hresult : w'.stage = .ended (some (.ok e)))
    (hyaml : Metadata.read? (w.deposit.record s size).write = some (w.deposit.record s size))
    (hbinary : t'.hasPath (s.binaryPath w.key) = true) :
    s.lookup t' w.key = .ok (some ⟨w.key, w.deposit.record s size⟩) := by
  cases h with
  | recorded hstage' hwrite =>
      rw [hstage] at hstage'
      cases hstage'
      have hread := FileTree.readFile_of_writeFile (writeFile_of_writeTo hwrite)
      exact lookup_eq_some_iff.2 ⟨rfl, hbinary, _, hread, hyaml⟩
  | rested hstage' =>
      rw [hstage] at hstage'
      cases hstage'
  | _ => cases hresult

namespace TwoWriters

def store : Store := ⟨"/s"⟩

/-- Some libraries, and a store with these files among its binaries. -/
def files (binaries : List (String × Branch)) : FileTree :=
  ⟨[], [("a", .file [1, 2, 3]), ("b", .file [4, 5]), ("c", .file [6, 7]),
    ("s", .directory [("binaries", .directory binaries), ("metadata", .directory [])])]⟩

def deposit (library : String) : Deposit := ⟨"k", library, "cc", 0, 0, ⟨0, 0⟩⟩

def crowd (t : FileTree) (first second : String) : Crowd (Fin 2) where
  files := t
  writers
    | 0 => ⟨deposit first, .waiting, none⟩
    | 1 => ⟨deposit second, .waiting, none⟩

theorem begins {first second : String}
    (hfirst : Path.resolve [] first ≠ ["s", "binaries", "k.tmp"])
    (hsecond : Path.resolve [] second ≠ ["s", "binaries", "k.tmp"]) :
    (crowd (files []) first second).Begins store := by
  have hfresh : store.Fresh (files []) := by
    refine ⟨?_, ?_⟩
    · intro part
      cases part <;> decide
    · intro part name bytes
      cases part with
      | library => exact nofun
      | staged => exact nofun
      | record => exact nofun
  have hkey : IsKey "k" := ⟨by decide, by decide, by decide⟩
  refine ⟨hfresh, ?_, ?_, ?_⟩
  · exact Fin.forall_fin_two.2 ⟨⟨rfl, rfl⟩, rfl, rfl⟩
  · exact Fin.forall_fin_two.2 ⟨hkey, hkey⟩
  · exact Fin.forall_fin_two.2 ⟨Ne.symm hfirst, Ne.symm hsecond⟩

theorem read?_record {size : Nat} (hsize : size = 0 ∨ size = 2) (library : String) :
    Metadata.read? ((deposit library).record store size).write =
      some ((deposit library).record store size) := by
  change Metadata.read? (store.recordOf ⟨0, 0⟩ "k" "cc" size 0 0).write =
    some (store.recordOf ⟨0, 0⟩ "k" "cc" size 0 0)
  rw [Metadata.read?_write, Metadata.toList_text]
  rcases hsize with rfl | rfl <;> decide +kernel

/-- The first writer has measured the library and ends well. -/
def AboutToRecord (c : Crowd (Fin 2)) (library : String) (size : Nat) : Prop :=
  (c.writers 0).deposit = deposit library ∧ (c.writers 0).stage = .measured size ∧
    ((c.next store (.step 0 0)).writers 0).stage =
      .ended (some (.ok ⟨"k", (deposit library).record store size⟩)) ∧
    (c.next store (.step 0 0)).files.hasPath (store.binaryPath "k") = true

instance (c : Crowd (Fin 2)) (library : String) (size : Nat) :
    Decidable (AboutToRecord c library size) :=
  inferInstanceAs (Decidable (_ ∧ _ ∧ _ ∧ _))

theorem lookup_run {c : Crowd (Fin 2)} {library : String} {size : Nat}
    {events : List (Event (Fin 2))} (h : AboutToRecord (c.run store events) library size)
    (hsize : size = 0 ∨ size = 2) :
    store.lookup (c.run store (events ++ [.step 0 0])).files "k" =
      .ok (some ⟨"k", (deposit library).record store size⟩) := by
  rw [Crowd.run_append, Crowd.run_cons, Crowd.run_nil]
  generalize c.run store events = c at h ⊢
  obtain ⟨hdeposit, hstage, hresult, hbinary⟩ := h
  have hkey : (c.writers 0).key = "k" := by
    rw [Writer.key, hdeposit]
    rfl
  have htook := Writer.took_step store 0 (c.writers 0) c.files
  have hyaml := read?_record hsize library
  rw [← hdeposit] at hyaml
  rw [Crowd.writers_next_step, if_pos rfl] at hresult
  rw [Crowd.files_next_step, ← hkey] at hbinary
  rw [Crowd.files_next_step, ← hkey]
  have hfound := htook.lookup_eq hstage hresult hyaml hbinary
  rw [hdeposit] at hfound
  exact hfound

/-! The second writer opens the file when the first one has moved it. -/

def inTurn : List (Event (Fin 2)) :=
  [.step 0 0, .step 0 0, .step 0 0, .step 0 0, .step 0 0, .step 1 0, .step 1 0, .step 0 0]

def completed : List (Event (Fin 2)) :=
  [.step 1 0, .step 1 0, .step 1 0]

theorem lookup_inTurn :
    store.lookup ((crowd (files []) "/b" "/c").run store (inTurn ++ [.step 0 0])).files "k" =
      .ok (some ⟨"k", (deposit "/b").record store 2⟩) :=
  lookup_run (by decide +kernel) (.inr rfl)

theorem orderly_inTurn :
    (crowd (files []) "/b" "/c").Orderly store ((inTurn ++ [.step 0 0]) ++ completed) := by
  decide +kernel

theorem readBack_inTurn :
    ((crowd (files []) "/b" "/c").run store (inTurn ++ [.step 0 0])).ReadBack store := by
  have hwriters : ∀ i,
      ((((crowd (files []) "/b" "/c").run store (inTurn ++ [.step 0 0])).writers i).deposit =
        deposit "/b" ∨
      (((crowd (files []) "/b" "/c").run store (inTurn ++ [.step 0 0])).writers i).deposit =
        deposit "/c") ∧
      (((crowd (files []) "/b" "/c").run store (inTurn ++ [.step 0 0])).writers i).given.map
        List.length = some 2 := by
    decide +kernel
  rintro i library ⟨j, -, hgiven⟩
  have hlength := (hwriters j).2
  rw [hgiven, Option.map_some, Option.some_inj] at hlength
  rw [hlength]
  rcases (hwriters i).1 with hdeposit | hdeposit
  · rw [hdeposit]
    exact read?_record (.inr rfl) "/b"
  · rw [hdeposit]
    exact read?_record (.inr rfl) "/c"

/-- A reader comes when one of two writers has published and the other one is copying. -/
theorem readers_get_complete_library_in_turn :
    ∃ found, store.lookup ((crowd (files []) "/b" "/c").run store
        (inTurn ++ [.step 0 0])).files "k" = .ok (some found) ∧
      ∃ i library, ((crowd (files []) "/b" "/c").writers i).key = "k" ∧
        (((crowd (files []) "/b" "/c").run store
          ((inTurn ++ [.step 0 0]) ++ completed)).writers i).given = some library ∧
        ((crowd (files []) "/b" "/c").run store
          ((inTurn ++ [.step 0 0]) ++ completed)).files.readFile found.metadata.binary =
            .ok library := by
  refine ⟨_, lookup_inTurn, ?_⟩
  exact readers_get_complete_library (begins (by decide) (by decide)) orderly_inTurn
    readBack_inTurn (by decide) lookup_inTurn

/-! What goes wrong otherwise.  The second writer may empty the file when the first one has copied
all of the library, or both may open it before one of them writes.  And a single writer that is
given the staging file itself empties it before it has read anything. -/

def emptied : List (Event (Fin 2)) :=
  [.step 0 0, .step 0 9, .step 0 0, .step 1 0, .step 1 1, .step 0 0, .step 0 0]

def mixed : List (Event (Fin 2)) :=
  [.step 0 0, .step 1 0, .step 0 9, .step 1 0, .step 0 0, .step 0 0, .step 0 0]

def single : List (Event (Fin 2)) :=
  [.step 0 0, .step 0 0, .step 0 0, .step 0 0]

/-- A reader finds this under the key. -/
def Found (c : Crowd (Fin 2)) (bytes : List UInt8) : Prop :=
  ∃ found, store.lookup c.files "k" = .ok (some found) ∧
    c.files.readFile found.metadata.binary = .ok bytes

theorem found_run {c : Crowd (Fin 2)} {library : String} {size : Nat}
    {events : List (Event (Fin 2))} {bytes : List UInt8} (hsize : size = 0 ∨ size = 2)
    (h : AboutToRecord (c.run store events) library size)
    (hread : (c.run store (events ++ [.step 0 0])).files.readFile (store.binaryPath "k") =
      .ok bytes) : Found (c.run store (events ++ [.step 0 0])) bytes := by
  have hbinary : ((deposit library).record store size).binary = store.binaryPath "k" :=
    (deposit library).binary_record store size
  rw [← hbinary] at hread
  exact ⟨_, lookup_run h hsize, hread⟩

theorem run_emptied :
    AboutToRecord ((crowd (files []) "/a" "/a").run store emptied) "/a" 2 ∧
      ((crowd (files []) "/a" "/a").run store (emptied ++ [.step 0 0])).files.readFile
        (store.binaryPath "k") = .ok [1, 2] ∧
      ∀ i, (((crowd (files []) "/a" "/a").run store
        (emptied ++ [.step 0 0])).writers i).given = some [1, 2, 3] := by
  decide +kernel

theorem run_mixed :
    AboutToRecord ((crowd (files []) "/b" "/c").run store mixed) "/b" 2 ∧
      ((crowd (files []) "/b" "/c").run store (mixed ++ [.step 0 0])).files.readFile
        (store.binaryPath "k") = .ok [6, 5] ∧
      (((crowd (files []) "/b" "/c").run store
        (mixed ++ [.step 0 0])).writers 0).given = some [4, 5] ∧
      (((crowd (files []) "/b" "/c").run store
        (mixed ++ [.step 0 0])).writers 1).given = some [6, 7] := by
  decide +kernel

def staged : FileTree := files [("k.tmp", .file [1, 2, 3])]

theorem run_single :
    AboutToRecord ((crowd staged "/s/binaries/k.tmp" "/a").run store single)
        "/s/binaries/k.tmp" 0 ∧
      ((crowd staged "/s/binaries/k.tmp" "/a").run store (single ++ [.step 0 0])).files.readFile
        (store.binaryPath "k") = .ok [] ∧
      (((crowd staged "/s/binaries/k.tmp" "/a").run store
        (single ++ [.step 0 0])).writers 0).given = some [1, 2, 3] := by
  decide +kernel

/-- Two processes store libraries under one key, and a reader finds the first two bytes of a
library that has three, although both were given the same one, or bytes of two libraries.  And a
single one finds its library empty if that was in the place that it is first copied to. -/
theorem readers_get_torn_library :
    ((crowd (files []) "/a" "/a").Begins store ∧ (crowd (files []) "/b" "/c").Begins store) ∧
    (Found ((crowd (files []) "/a" "/a").run store (emptied ++ [.step 0 0])) [1, 2] ∧
      ∀ i, (((crowd (files []) "/a" "/a").run store
        (emptied ++ [.step 0 0])).writers i).given = some [1, 2, 3]) ∧
    (Found ((crowd (files []) "/b" "/c").run store (mixed ++ [.step 0 0])) [6, 5] ∧
      (((crowd (files []) "/b" "/c").run store
        (mixed ++ [.step 0 0])).writers 0).given = some [4, 5] ∧
      (((crowd (files []) "/b" "/c").run store
        (mixed ++ [.step 0 0])).writers 1).given = some [6, 7]) ∧
    Found ((crowd staged "/s/binaries/k.tmp" "/a").run store (single ++ [.step 0 0])) [] ∧
      (((crowd staged "/s/binaries/k.tmp" "/a").run store
        (single ++ [.step 0 0])).writers 0).given = some [1, 2, 3] := by
  obtain ⟨hemptied, hpart, hsame⟩ := run_emptied
  obtain ⟨hmixed, hmixture, hgiven⟩ := run_mixed
  obtain ⟨hsingle, hempty, hstaged⟩ := run_single
  exact ⟨⟨begins (by decide) (by decide), begins (by decide) (by decide)⟩,
    ⟨found_run (.inr rfl) hemptied hpart, hsame⟩, ⟨found_run (.inr rfl) hmixed hmixture, hgiven⟩,
    found_run (.inl rfl) hsingle hempty, hstaged⟩

end TwoWriters
end Store
end Loopsmith
