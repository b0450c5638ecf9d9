import Loopsmith.Proofs.Store.Effects

/-!
# Storing a library step by step

Storing a library is not one change of the files but several: the staging file is opened and
emptied, the library is written into it piece by piece, the file is moved to its place, its size is
measured, and the record is written.  When several processes store libraries at the same time,
these steps come in any order, and a process can be killed between any two of them.

A process that writes does so through a file that it has opened, and moving the file does not close
it: what is written from then on gets into the file at its new place, and if that is replaced, it
gets lost.  So a writer in the middle of a copy knows the place of its file, and whoever moves a
file tells all others (`Store.Writer.moved`).

The library that is copied does not change meanwhile.  Alone, a writer does exactly what
`Store.put` does (`Store.Crowd.run_alone`).
-/

namespace Loopsmith

/-! ## Writing into an open file -/

namespace Branch

theorem setEntry_setEntry (entries : List (String × Branch)) (name : String) (b b' : Branch) :
    setEntry (setEntry entries name b) name b' = setEntry entries name b' := by
  simp [setEntry, List.filter_filter]

/-- Putting a branch at a place undoes what was put there before. -/
theorem put_put (b b' : Branch) (p : Place) (t : Branch) : put b' p (put b p t) = put b' p t := by
  induction p generalizing t with
  | nil => rfl
  | cons name p ih =>
      cases t with
      | file bytes => rfl
      | directory entries =>
          simp only [put, lookup_setEntry, if_pos, Option.getD_some, setEntry_setEntry, ih]

end Branch

namespace FileTree

theorem set_set {t : FileTree} {p : Place} (hp : p ≠ []) (n n' : Node) :
    (t.set p n).set p n' = t.set p n' := by
  obtain ⟨name, p, rfl⟩ := List.exists_cons_of_ne_nil hp
  have htop : (t.set (name :: p) n).top = (Branch.ofNode n).put (name :: p) t.top := rfl
  rw [set, put, htop, Branch.put_put]
  rfl

/-- The bytes of a file, from an offset on replaced by others; a gap is filled with zeros. -/
def patched (old : List UInt8) (offset : Nat) (bytes : List UInt8) : List UInt8 :=
  old.take offset ++ List.replicate (offset - old.length) 0 ++ bytes ++
    old.drop (offset + bytes.length)

theorem patched_append (start rest bytes : List UInt8) :
    patched (start ++ rest) start.length bytes = start ++ bytes ++ rest.drop bytes.length := by
  have hgap : start.length - (start ++ rest).length = 0 := by
    rw [List.length_append]
    omega
  rw [patched, hgap, List.take_left, List.drop_append]
  simp

theorem patched_length (old bytes : List UInt8) : patched old old.length bytes = old ++ bytes := by
  simpa using patched_append old [] bytes

theorem patched_patched (old : List UInt8) (offset : Nat) (bytes bytes' : List UInt8) :
    patched (patched old offset bytes) (offset + bytes.length) bytes' =
      patched old offset (bytes ++ bytes') := by
  have hstart : (old.take offset ++ List.replicate (offset - old.length) 0 ++ bytes).length =
      offset + bytes.length := by
    simp only [List.length_append, List.length_take, List.length_replicate]
    omega
  have hpatched : patched old offset bytes =
      (old.take offset ++ List.replicate (offset - old.length) 0 ++ bytes) ++
        old.drop (offset + bytes.length) := rfl
  rw [hpatched, ← hstart, patched_append, hstart, patched, List.drop_drop, List.length_append]
  simp only [List.append_assoc, Nat.add_assoc]

/-- Writes into an open file; writing nothing changes nothing. -/
def writeAt (t : FileTree) (handle : Option Place) (offset : Nat) (bytes : List UInt8) : FileTree :=
  match handle, bytes with
  | none, _ | _, [] => t
  | some p, bytes =>
      match t.node? p with
      | some (.file old) => t.set p (.file (patched old offset bytes))
      | _ => t

@[simp] theorem writeAt_none (t : FileTree) (offset : Nat) (bytes : List UInt8) :
    t.writeAt none offset bytes = t := by
  cases bytes <;> rfl

@[simp] theorem writeAt_nil (t : FileTree) (handle : Option Place) (offset : Nat) :
    t.writeAt handle offset [] = t := by
  cases handle <;> rfl

theorem writeAt_of_file {t : FileTree} {p : Place} {old : List UInt8}
    (h : t.node? p = some (.file old)) (offset : Nat) {bytes : List UInt8} (hbytes : bytes ≠ []) :
    t.writeAt (some p) offset bytes = t.set p (.file (patched old offset bytes)) := by
  obtain ⟨b, bytes, rfl⟩ := List.exists_cons_of_ne_nil hbytes
  simp only [writeAt, h]

theorem writeAt_of_not_file {t : FileTree} {p : Place} (h : ∀ old, t.node? p ≠ some (.file old))
    (offset : Nat) (bytes : List UInt8) : t.writeAt (some p) offset bytes = t := by
  cases bytes with
  | nil => rfl
  | cons b bytes =>
      unfold writeAt
      dsimp only
      split
      · next old hold => exact absurd hold (h old)
      · rfl

theorem takes_of_node?_eq_file {t : FileTree} {p : Place} {bytes : List UInt8}
    (h : t.node? p = some (.file bytes)) : t.Takes p := by
  refine ⟨?_, by simp [h]⟩
  rcases List.eq_nil_or_concat p with rfl | ⟨dir, name, rfl⟩
  · cases h
  · rw [List.concat_eq_append] at h ⊢
    exact ⟨dir, name, rfl, node?_of_isPrefix h (List.prefix_append _ _) (by simp)⟩

/-- Writing twice in a row is writing once. -/
theorem writeAt_writeAt (t : FileTree) (handle : Option Place) (offset : Nat)
    (bytes bytes' : List UInt8) :
    (t.writeAt handle offset bytes).writeAt handle (offset + bytes.length) bytes' =
      t.writeAt handle offset (bytes ++ bytes') := by
  by_cases hempty : bytes = [] ∨ bytes' = []
  · rcases hempty with rfl | rfl <;> simp
  obtain ⟨hbytes, hbytes'⟩ := not_or.1 hempty
  cases handle with
  | none => simp
  | some p =>
      by_cases hfile : ∃ old, t.node? p = some (.file old)
      · obtain ⟨old, hold⟩ := hfile
        have htakes := takes_of_node?_eq_file hold
        have hnew : (t.set p (.file (patched old offset bytes))).node? p =
            some (.file (patched old offset bytes)) := by
          rw [node?_set htakes, if_pos rfl]
        rw [writeAt_of_file hold offset hbytes, writeAt_of_file hnew _ hbytes',
          writeAt_of_file hold offset (by simp [hbytes]), set_set htakes.ne_nil, patched_patched]
      · have hnot := not_exists.1 hfile
        rw [writeAt_of_not_file hnot, writeAt_of_not_file hnot, writeAt_of_not_file hnot]

/-- A copy is the emptied file with all that there is to copy written into it. -/
theorem writeAt_of_copy {t copied : FileTree} {source target : String}
    (h : t.copy source target = .ok copied) :
    ∃ bytes, copied.node? (Path.resolve t.cwd target) = some (.file bytes) ∧
      (copied.set (Path.resolve t.cwd target) (.file [])).writeAt
        (some (Path.resolve t.cwd target)) 0 bytes = copied := by
  obtain ⟨bytes, -, -, htakes, hcopied⟩ := copy_eq_ok h
  generalize (if Path.resolve t.cwd target = Path.resolve t.cwd source then [] else bytes) = written
    at hcopied
  generalize Path.resolve t.cwd target = p at htakes hcopied ⊢
  rw [hcopied, set_set htakes.ne_nil]
  refine ⟨written, by rw [node?_set htakes, if_pos rfl], ?_⟩
  by_cases hwritten : written = []
  · rw [hwritten, writeAt_nil]
  · have hempty : (t.set p (.file [])).node? p = some (.file []) := by
      rw [node?_set htakes, if_pos rfl]
    have hpatched : patched [] 0 written = written := patched_length [] written
    rw [writeAt_of_file hempty 0 hwritten, hpatched, set_set htakes.ne_nil]

end FileTree

namespace Store

/-! ## One writer -/

/-- What a call is asked to store. -/
structure Deposit where
  key : String
  library : String
  command : String
  buildMilliseconds : Nat
  sourceLength : Nat
  now : Timestamp
  deriving DecidableEq

namespace Deposit

/-- Storing the library with no one else around. -/
def put (d : Deposit) (s : Store) (t : FileTree) : Except StoreError Entry × FileTree :=
  s.put t d.now d.key d.library d.command d.buildMilliseconds d.sourceLength

def record (d : Deposit) (s : Store) (size : Nat) : Metadata :=
  s.recordOf d.now d.key d.command size d.buildMilliseconds d.sourceLength

theorem binary_record (d : Deposit) (s : Store) (size : Nat) :
    (d.record s size).binary = s.binaryPath d.key :=
  rfl

/-- What is left when the size is known. -/
def writeRecord (d : Deposit) (s : Store) (size : Nat) (t : FileTree) :
    Except StoreError Entry × FileTree :=
  match (d.record s size).writeTo t (s.metadataPath d.key) with
  | .error e => (.error e, t)
  | .ok t' => (.ok ⟨d.key, d.record s size⟩, t')

/-- What is left when the library is in its place. -/
def recordLibrary (d : Deposit) (s : Store) (t : FileTree) : Except StoreError Entry × FileTree :=
  match librarySize t (s.binaryPath d.key) with
  | .error e => (.error e, t)
  | .ok size => d.writeRecord s size t

/-- What is left when the library has been copied. -/
def publishCopy (d : Deposit) (s : Store) (t : FileTree) : Except StoreError Entry × FileTree :=
  match t.rename (s.stagingPath d.key) (s.binaryPath d.key) with
  | .error e => (.error (.publish (s.binaryPath d.key) e), t)
  | .ok t' => d.recordLibrary s t'

theorem put_eq (d : Deposit) (s : Store) (t : FileTree) :
    d.put s t =
      match t.copy d.library (s.stagingPath d.key) with
      | .error e => (.error (.copyLibrary d.library e), t)
      | .ok copied => d.publishCopy s copied := by
  unfold put Store.put Store.publish publishCopy recordLibrary writeRecord record recordOf
  -- what the operations do is of no importance here, and must not be looked at
  generalize FileTree.copy = copy
  generalize FileTree.rename = rename
  generalize librarySize = sizeOf
  generalize Metadata.writeTo = writeTo
  cases copy t d.library (s.stagingPath d.key) with
  | error e => rfl
  | ok copied =>
      dsimp only
      cases rename copied (s.stagingPath d.key) (s.binaryPath d.key) with
      | error e => rfl
      | ok t' => rfl

end Deposit

/-- How far a writer has got. -/
inductive Stage where
  | waiting
  /-- The staging file is open, if it has not been lost, and from the offset on the rest has to be
  written. -/
  | copying (handle : Option Place) (offset : Nat) (rest : List UInt8)
  | copied
  | published
  | measured (size : Nat)
  /-- At the end there is a result, unless the process was killed. -/
  | ended (result : Option (Except StoreError Entry))
  deriving DecidableEq

namespace Stage

/-- How many steps are left at most, once the copy has begun. -/
def remaining : Stage → Nat
  | waiting | ended _ => 0
  | copying _ _ rest => rest.length + 4
  | copied => 3
  | published => 2
  | measured _ => 1

theorem eq_ended {stage : Stage} (h : stage ≠ .waiting) (hremaining : stage.remaining = 0) :
    ∃ result, stage = .ended result := by
  cases stage with
  | waiting => exact absurd rfl h
  | ended result => exact ⟨result, rfl⟩
  | _ => simp [remaining] at hremaining

end Stage

/-- A process that stores a library. -/
structure Writer where
  deposit : Deposit
  stage : Stage
  /-- What was in the library when it was opened. -/
  given : Option (List UInt8)

namespace Writer

def key (w : Writer) : String :=
  w.deposit.key

/-- The writer at another stage. -/
def advance (w : Writer) (stage : Stage) : Writer :=
  { w with stage }

/-- The next step; of what has to be written at most `n + 1` bytes are. -/
def step (s : Store) (n : Nat) (w : Writer) (t : FileTree) : Writer × FileTree :=
  match w.stage with
  | .waiting =>
      match t.copy w.deposit.library (s.stagingPath w.key) with
      | .error e => (w.advance (.ended (some (.error (.copyLibrary w.deposit.library e)))), t)
      | .ok copied =>
          -- what the copy ends with is what has to be written
          let p := Path.resolve t.cwd (s.stagingPath w.key)
          let rest := match copied.node? p with
            | some (.file bytes) => bytes
            | _ => []
          ({ w with stage := .copying (some p) 0 rest,
                    given := (t.readFile w.deposit.library).toOption },
            copied.set p (.file []))
  | .copying _ _ [] => (w.advance .copied, t)
  | .copying handle offset rest =>
      let bytes := rest.take (n + 1)
      (w.advance (.copying handle (offset + bytes.length) (rest.drop (n + 1))),
        t.writeAt handle offset bytes)
  | .copied =>
      match t.rename (s.stagingPath w.key) (s.binaryPath w.key) with
      | .error e => (w.advance (.ended (some (.error (.publish (s.binaryPath w.key) e)))), t)
      | .ok t' => (w.advance .published, t')
  | .published =>
      match librarySize t (s.binaryPath w.key) with
      | .error e => (w.advance (.ended (some (.error e))), t)
      | .ok size => (w.advance (.measured size), t)
  | .measured size =>
      match (w.deposit.record s size).writeTo t (s.metadataPath w.key) with
      | .error e => (w.advance (.ended (some (.error e))), t)
      | .ok t' => (w.advance (.ended (some (.ok ⟨w.key, w.deposit.record s size⟩))), t')
  | .ended _ => (w, t)

/-- The same writer when a file has been moved. -/
def moved (source target : Place) (w : Writer) : Writer :=
  match w.stage with
  | .copying (some p) offset rest =>
      let handle := if p = source then some target else if p = target then none else some p
      w.advance (.copying handle offset rest)
  | _ => w

/-- The same writer when another one has taken a step: it moves a file when it publishes. -/
def beside (s : Store) (cwd : Place) (w other : Writer) : Writer :=
  match other.stage with
  | .published =>
      w.moved (Path.resolve cwd (s.stagingPath other.key)) (Path.resolve cwd (s.binaryPath other.key))
  | _ => w

theorem step_of_waiting {w : Writer} (h : w.stage = .waiting) (s : Store) (n : Nat) (t : FileTree) :
    w.step s n t = w.step s 0 t := by
  unfold step
  rw [h]

/-- What a step can do. -/
inductive Took (s : Store) (w : Writer) (t : FileTree) : Writer → FileTree → Prop where
  | failed (e : StoreError) : Took s w t (w.advance (.ended (some (.error e)))) t
  | opened {p : Place} {bytes rest : List UInt8} (hstage : w.stage = .waiting)
      (hp : p = Path.resolve t.cwd (s.stagingPath w.key)) (htakes : t.Takes p)
      (hread : t.readFile w.deposit.library = .ok bytes)
      (hrest : p ≠ Path.resolve t.cwd w.deposit.library → rest = bytes) :
      Took s w t { w with stage := .copying (some p) 0 rest, given := some bytes }
        (t.set p (.file []))
  | wrote {handle : Option Place} {offset : Nat} {bytes rest : List UInt8}
      (hstage : w.stage = .copying handle offset (bytes ++ rest)) (hbytes : bytes ≠ []) :
      Took s w t (w.advance (.copying handle (offset + bytes.length) rest))
        (t.writeAt handle offset bytes)
  | copied {handle : Option Place} {offset : Nat} (hstage : w.stage = .copying handle offset []) :
      Took s w t (w.advance .copied) t
  | published {t' : FileTree} (hstage : w.stage = .copied)
      (hrename : t.rename (s.stagingPath w.key) (s.binaryPath w.key) = .ok t') :
      Took s w t (w.advance .published) t'
  | measured {size : Nat} (hstage : w.stage = .published)
      (hsize : librarySize t (s.binaryPath w.key) = .ok size) :
      Took s w t (w.advance (.measured size)) t
  | recorded {size : Nat} {t' : FileTree} (hstage : w.stage = .measured size)
      (hwrite : (w.deposit.record s size).writeTo t (s.metadataPath w.key) = .ok t') :
      Took s w t (w.advance (.ended (some (.ok ⟨w.key, w.deposit.record s size⟩)))) t'
  | rested {result : Option (Except StoreError Entry)} (hstage : w.stage = .ended result) :
      Took s w t w t

theorem took_step (s : Store) (n : Nat) (w : Writer) (t : FileTree) :
    Took s w t (w.step s n t).1 (w.step s n t).2 := by
  unfold step
  split
  · next hstage =>
      split
      · next e _ => exact .failed _
      · next copied hcopy =>
          obtain ⟨bytes, hread, -, htakes, hcopied⟩ := FileTree.copy_eq_ok hcopy
          dsimp only
          rw [hread, hcopied, FileTree.node?_set htakes, if_pos rfl,
            FileTree.set_set htakes.ne_nil]
          refine .opened hstage rfl htakes hread ?_
          intro hne
          rw [if_neg hne]
  · next hstage => exact .copied hstage
  · next handle offset rest hrest hstage =>
      have hsplit : w.stage = .copying handle offset (rest.take (n + 1) ++ rest.drop (n + 1)) := by
        rw [List.take_append_drop, hstage]
      refine .wrote hsplit ?_
      simpa using hrest
  · next hstage =>
      split
      · exact .failed _
      · next hrename => exact .published hstage hrename
  · next hstage =>
      split
      · exact .failed _
      · next hsize => exact .measured hstage hsize
  · next hstage =>
      split
      · exact .failed _
      · next hwrite => exact .recorded hstage hwrite
  · next hstage => exact .rested hstage

/-- Every step after the first one leaves less to do. -/
theorem Took.remaining_le {s : Store} {w w' : Writer} {t t' : FileTree} (h : Took s w t w' t') :
    w'.stage ≠ .waiting ∧
      (w.stage ≠ .waiting → w'.stage.remaining ≤ w.stage.remaining - 1) := by
  cases h with
  | failed e => simp [advance, Stage.remaining]
  | opened hstage => simp [hstage]
  | wrote hstage hbytes =>
      have hpos := List.length_pos_iff.2 hbytes
      simp only [hstage, advance, Stage.remaining, List.length_append]
      refine ⟨nofun, fun _ => ?_⟩
      omega
  | copied hstage => simp [hstage, advance, Stage.remaining]
  | published hstage => simp [hstage, advance, Stage.remaining]
  | measured hstage => simp [hstage, advance, Stage.remaining]
  | recorded hstage => simp [hstage, advance, Stage.remaining]
  | rested hstage => simp [hstage, Stage.remaining]

theorem Took.deposit_eq {s : Store} {w w' : Writer} {t t' : FileTree} (h : Took s w t w' t') :
    w'.deposit = w.deposit := by
  cases h <;> rfl

/-- Who has just published was about to. -/
theorem Took.copied_of_published {s : Store} {w w' : Writer} {t t' : FileTree}
    (h : Took s w t w' t') (hpublished : w'.stage = .published) : w.stage = .copied := by
  cases h with
  | published hstage => exact hstage
  | rested hstage =>
      rw [hstage] at hpublished
      cases hpublished
  | _ => cases hpublished

/-- What the writer ends with if no one else gets in between. -/
def finish (s : Store) (w : Writer) (t : FileTree) :
    Option (Except StoreError Entry) × FileTree :=
  match w.stage with
  | .waiting => (w.deposit.put s t).map some id
  | .copying handle offset rest =>
      (w.deposit.publishCopy s (t.writeAt handle offset rest)).map some id
  | .copied => (w.deposit.publishCopy s t).map some id
  | .published => (w.deposit.recordLibrary s t).map some id
  | .measured size => (w.deposit.writeRecord s size t).map some id
  | .ended result => (result, t)

theorem finish_step (s : Store) (n : Nat) (w : Writer) (t : FileTree) :
    finish s (w.step s n t).1 (w.step s n t).2 = finish s w t := by
  obtain ⟨d, stage, given⟩ := w
  cases stage with
  | waiting =>
      unfold step
      dsimp only [finish, key]
      rw [d.put_eq]
      cases hcopy : t.copy d.library (s.stagingPath d.key) with
      | error e => rfl
      | ok copied =>
          obtain ⟨bytes, hbytes, hwrite⟩ := FileTree.writeAt_of_copy hcopy
          dsimp only
          rw [hbytes]
          dsimp only
          rw [hwrite]
  | copying handle offset rest =>
      cases rest with
      | nil =>
          dsimp only [step, finish, advance]
          rw [FileTree.writeAt_nil]
      | cons b rest =>
          dsimp only [step, finish, advance]
          rw [FileTree.writeAt_writeAt, List.take_append_drop]
  | copied =>
      unfold step
      dsimp only [finish, key, Deposit.publishCopy]
      cases t.rename (s.stagingPath d.key) (s.binaryPath d.key) with
      | error e => rfl
      | ok t' => rfl
  | published =>
      unfold step
      dsimp only [finish, key, Deposit.recordLibrary]
      cases librarySize t (s.binaryPath d.key) with
      | error e => rfl
      | ok size => rfl
  | measured size =>
      unfold step
      dsimp only [finish, key, Deposit.writeRecord]
      cases (d.record s size).writeTo t (s.metadataPath d.key) with
      | error e => rfl
      | ok t' => rfl
  | ended result => rfl

end Writer

/-! ## Many writers -/

/-- The files, and all who store something in them. -/
structure Crowd (ι : Type) where
  files : FileTree
  writers : ι → Writer

/-- A writer takes its next step, or is killed. -/
inductive Event (ι : Type) where
  | step (i : ι) (n : Nat)
  | kill (i : ι)

namespace Crowd

variable {ι : Type} [DecidableEq ι]

def next (s : Store) (c : Crowd ι) : Event ι → Crowd ι
  | .step i n =>
      let (w, files) := (c.writers i).step s n c.files
      ⟨files, fun j => if j = i then w else (c.writers j).beside s c.files.cwd w⟩
  | .kill i => ⟨c.files, fun j => if j = i then (c.writers i).advance (.ended none) else c.writers j⟩

def run (s : Store) (c : Crowd ι) (events : List (Event ι)) : Crowd ι :=
  events.foldl (next s) c

@[simp] theorem run_nil (s : Store) (c : Crowd ι) : c.run s [] = c :=
  rfl

@[simp] theorem run_cons (s : Store) (c : Crowd ι) (e : Event ι) (events : List (Event ι)) :
    c.run s (e :: events) = (c.next s e).run s events :=
  rfl

theorem run_append (s : Store) (c : Crowd ι) (before after : List (Event ι)) :
    c.run s (before ++ after) = (c.run s before).run s after :=
  List.foldl_append

theorem files_next_step (s : Store) (c : Crowd ι) (i : ι) (n : Nat) :
    (c.next s (.step i n)).files = ((c.writers i).step s n c.files).2 :=
  rfl

theorem writers_next_step (s : Store) (c : Crowd ι) (i : ι) (n : Nat) (j : ι) :
    (c.next s (.step i n)).writers j =
      if j = i then ((c.writers i).step s n c.files).1
      else (c.writers j).beside s c.files.cwd ((c.writers i).step s n c.files).1 :=
  rfl

/-! ## A writer alone -/

theorem finish_run (s : Store) (c : Crowd ι) (i : ι) (ns : List Nat) :
    ((c.run s (ns.map (.step i))).writers i).finish s (c.run s (ns.map (.step i))).files =
      (c.writers i).finish s c.files := by
  induction ns generalizing c with
  | nil => rfl
  | cons n ns ih =>
      rw [List.map_cons, run_cons, ih, files_next_step, writers_next_step, if_pos rfl]
      exact Writer.finish_step s n (c.writers i) c.files

theorem exists_ended (s : Store) (c : Crowd ι) (i : ι) (ns : List Nat)
    (hstarted : (c.writers i).stage ≠ .waiting)
    (hns : (c.writers i).stage.remaining ≤ ns.length) :
    ∃ result, ((c.run s (ns.map (.step i))).writers i).stage = .ended result := by
  induction ns generalizing c with
  | nil => exact Stage.eq_ended hstarted (Nat.le_zero.1 hns)
  | cons n ns ih =>
      obtain ⟨hstarted', hless⟩ := (Writer.took_step s n (c.writers i) c.files).remaining_le
      have hless := hless hstarted
      rw [List.length_cons] at hns
      rw [List.map_cons, run_cons]
      refine ih _ ?_ ?_
      · rw [writers_next_step, if_pos rfl]
        exact hstarted'
      · rw [writers_next_step, if_pos rfl]
        omega

/-- A writer that is alone from beginning to end has the result of `Store.put`, and leaves the
files as it does, in whatever pieces the library is copied. -/
theorem run_alone (s : Store) (c : Crowd ι) (i : ι) (hwaiting : (c.writers i).stage = .waiting) :
    ∃ m, ∀ ns : List Nat, m ≤ ns.length →
      ((c.run s (ns.map (.step i))).writers i).stage =
          .ended (some ((c.writers i).deposit.put s c.files).1) ∧
        (c.run s (ns.map (.step i))).files = ((c.writers i).deposit.put s c.files).2 := by
  refine ⟨((c.writers i).step s 0 c.files).1.stage.remaining + 1, fun ns hns => ?_⟩
  have hfinish := c.finish_run s i ns
  have hend : ∃ result, ((c.run s (ns.map (.step i))).writers i).stage = .ended result := by
    cases ns with
    | nil => exact absurd hns (by simp)
    | cons n ns =>
        rw [← Writer.step_of_waiting hwaiting s n c.files] at hns
        rw [List.map_cons, run_cons]
        refine exists_ended s _ i ns ?_ ?_
        · rw [writers_next_step, if_pos rfl]
          exact (Writer.took_step s n (c.writers i) c.files).remaining_le.1
        · rw [writers_next_step, if_pos rfl]
          simpa using hns
  obtain ⟨result, hresult⟩ := hend
  have hput : (c.writers i).finish s c.files =
      (some ((c.writers i).deposit.put s c.files).1, ((c.writers i).deposit.put s c.files).2) := by
    rw [Writer.finish, hwaiting]
    rfl
  rw [hput, Writer.finish, hresult] at hfinish
  obtain ⟨hsome, hfiles⟩ := Prod.mk.inj hfinish
  exact ⟨by rw [hresult, hsome], hfiles⟩

end Crowd
end Store
end Loopsmith
