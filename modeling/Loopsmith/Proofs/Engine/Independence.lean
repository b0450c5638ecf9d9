import Loopsmith.Proofs.Engine.Ledger
import Loopsmith.Proofs.Host.Scripted

/-!
# Loops do not get in each other's way

Two loops with different keys share one engine: its guard, its counters, its cache, and the place
where their bodies are built.  In which order their calls come should make no difference to either
of them, nor to what the engine has to show for it afterwards.

What each call does to the ledger is the subject of `Loopsmith.Proofs.Engine.Ledger`.  A call may leave
new files behind, but nothing that makes a difference to the next build (`next_specialize`).  The two
together carry over from one call to any number of them (`Serves.run`).

All of this takes room: free names for working directories, and numbers that do not make paths too
long.  Where the last number that fits is used up by one call, the other cannot have its body built
(`Serves.run_to_limit`), and then the order decides which of them has one
(`calls_at_limit_do_not_commute`).
-/

namespace Loopsmith

/-! ## What a call leaves to the next one -/

section

variable {host : Host}

/-- Where the builds of an engine work. -/
def State.workplace (host : Host) (s : State) : Workplace :=
  s.engine.pipeline.workplace host s.machine

theorem snd_buildBody_cases (host : Host) (site : LoopSite) (ps : Parameters)
    (w : Pipeline × Machine) : (buildBody host site ps w).2 = w ∨
      ∃ rendered, (buildBody host site ps w).2 =
        (w.1.compileAndLink host rendered site.compiler w.2).2 := by
  cases hrender : renderSource site.source ps with
  | error e =>
      rw [buildBody_of_render_error hrender]
      exact .inl rfl
  | ok rendered => exact .inr ⟨rendered, (buildBody_of_rendered hrender host w).2⟩

/-- What a call that asks for a body works on is what a build has left, or it works on nothing. -/
theorem Fetches.workshop_cases {call : Call} {s s₁ : State} {ps : Parameters}
    {r : Except SpecializationError Body} (h : Fetches host call s ps r s₁) :
    s₁.workshop = s.workshop ∨ ∃ rendered, s₁.workshop =
      let built := s.engine.pipeline.compileAndLink host rendered call.site.compiler s.machine
      (built.2.1, built.2.2.files, built.2.2.nextStem) := by
  have hbuilt := snd_buildBody_cases host call.site ps (s.engine.pipeline, s.machine)
  let workshopOf (w : Pipeline × Machine) : Pipeline × FileTree × Nat :=
    (w.1, w.2.files, w.2.nextStem)
  cases h with
  | hit b hb => exact .inl rfl
  | made b w hb hbuild =>
      rw [hbuild] at hbuilt
      exact hbuilt.imp (congrArg workshopOf) (Exists.imp fun _ => congrArg workshopOf)
  | failed e w hb hbuild =>
      rw [hbuild] at hbuilt
      exact hbuilt.imp (congrArg workshopOf) (Exists.imp fun _ => congrArg workshopOf)

/-- A call works on nothing, or it carries out one build. -/
theorem workshop_cases (host : Host) (call : Call) (s : State) :
    (specialize host call s).2.workshop = s.workshop ∨
      ∃ rendered, (specialize host call s).2.workshop =
        let built := s.engine.pipeline.compileAndLink host rendered call.site.compiler s.machine
        (built.2.1, built.2.2.files, built.2.2.nextStem) := by
  by_cases hin : LetIn call s
  · cases hparse : Parameters.parse call.site.parameters with
    | error e =>
        rw [specialize_of_malformed hin host hparse]
        exact .inl rfl
    | ok ps =>
        by_cases hwanted : Wanted host call ps s.claimed
        · obtain ⟨r, s₁, hasks⟩ := exists_asks hparse hwanted
          rw [workshop_specialize hin hasks]
          exact hasks.fetches.workshop_cases
        · rw [specialize_of_not_wanted hin hparse hwanted]
          exact .inl rfl
  · rw [specialize_of_not_letIn hin]
    unfold turnAway
    dsimp only
    split
    · exact .inl rfl
    · exact .inl rfl

theorem workplace_of_workshop {s : State} {p : Pipeline} {m : Machine}
    (h : s.workshop = (p, m.files, m.nextStem)) : s.workplace host = p.workplace host m := by
  obtain ⟨hpipeline, hrest⟩ := Prod.mk.inj h
  obtain ⟨hfiles, hnumber⟩ := Prod.mk.inj hrest
  rw [State.workplace, Pipeline.workplace, Pipeline.workplace, hpipeline, hfiles, hnumber]

/-- **Whatever a call comes to, the next one finds what this one found.** -/
theorem next_specialize (hwrites : host.WritesTarget) (call : Call) {s : State}
    (hstore : s.engine.pipeline.store = none) :
    (specialize host call s).2.engine.pipeline.store = none ∧
      (s.workplace host).Next ((specialize host call s).2.workplace host) := by
  rcases workshop_cases host call s with hsame | ⟨rendered, hbuilt⟩
  · have hpipeline : (specialize host call s).2.engine.pipeline = _ := congrArg Prod.fst hsame
    rw [hpipeline, workplace_of_workshop hsame]
    exact ⟨hstore, .refl _⟩
  · have hpipeline : (specialize host call s).2.engine.pipeline = _ := congrArg Prod.fst hbuilt
    rw [hpipeline, workplace_of_workshop hbuilt]
    exact Pipeline.next_compileAndLink hwrites hstore rendered call.site.compiler s.machine

end

/-! ## Calls one after the other -/

/-- The engine has what it needs to answer so many calls: linked bodies and room for builds.  Sources
can be written or not, as `prepared` says. -/
structure Serves (host : Host) (prepared : Bool) (k : Nat) (s : State) : Prop where
  linked : s.engine.cache.All fun _ b => ∃ a, b.artifact = some a
  store : s.engine.pipeline.store = none
  prepared : prepared = true ↔ (s.workplace host).Ready ∧ (s.workplace host).Fits
  room : (s.workplace host).Ready → (s.workplace host).Room k

namespace Serves

variable {host : Host} {compiles loads : String → String → Bool} {prepared : Bool} {s : State}

theorem hasEffect {k : Nat} (h : Serves host prepared (k + 1) s)
    (hsteady : host.Steady compiles loads)
    (hcalls : ∀ entry iteration pack, host.calls entry iteration pack = []) (call : Call) :
    HasEffect host call s
      (effect host.hash (Pipeline.outcomeOf prepared compiles loads) call s.engine.ledger) :=
  hasEffect_specialize h.linked hcalls fun rendered =>
    Pipeline.comesTo_compileAndLink hsteady h.store h.room h.prepared rendered call.site.compiler

/-- After a call it has what it needs for the others. -/
theorem step {k : Nat} (h : Serves host prepared (k + 1) s) (hwrites : host.WritesTarget)
    (call : Call) : Serves host prepared k (specialize host call s).2 := by
  obtain ⟨hstore, hnext⟩ := next_specialize hwrites call h.store
  refine ⟨?_, hstore, ?_, fun hready => ?_⟩
  · exact all_specialize h.linked fun _ _ _ _ hbuild => linked_of_buildBody hbuild
  · rw [hnext.ready, hnext.fits]
    exact h.prepared
  · have hready := hnext.ready.1 hready
    exact hnext.room k hready (h.room hready)

/-- **Calls for different keys have the effects that each of them would have alone.** -/
theorem run (calls : List Call) (h : Serves host prepared calls.length s)
    (hsteady : host.Steady compiles loads)
    (hcalls : ∀ entry iteration pack, host.calls entry iteration pack = [])
    (hapart : calls.Pairwise (Apart host.hash)) :
    let effectOf (call : Call) : Effect :=
      effect host.hash (Pipeline.outcomeOf prepared compiles loads) call s.engine.ledger
    let r := answerAll (specialize host) calls s
    r.1 = calls.map (effectOf · |>.status) ∧
      r.2.engine.ledger = calls.foldl (fun l call => l.add (effectOf call)) s.engine.ledger := by
  induction calls generalizing s with
  | nil => exact ⟨rfl, rfl⟩
  | cons c cs ih =>
      obtain ⟨hfirst, hrest⟩ := List.pairwise_cons.1 hapart
      obtain ⟨hstatus, hledger⟩ := h.hasEffect hsteady hcalls c
      obtain ⟨hstatuses, hledgers⟩ := ih (h.step hsteady.writes c) hrest
      rw [hledger] at hstatuses hledgers
      -- the first call makes no difference to the effects of the others
      have hsame : ∀ c' ∈ cs, _ := fun c' hc' => @effect_add host.hash
        (Pipeline.outcomeOf prepared compiles loads) c c' s.engine.ledger (hfirst c' hc')
      refine ⟨?_, ?_⟩
      · rw [List.map_cons, ← hstatus, answerAll]
        refine congrArg (List.cons _) (hstatuses.trans (List.map_congr_left fun c' hc' => ?_))
        exact congrArg Effect.status (hsame c' hc')
      · rw [List.foldl_cons, answerAll]
        refine hledgers.trans (List.foldl_ext _ _ _ fun l c' hc' => ?_)
        exact congrArg l.add (hsame c' hc')

end Serves

/-- **Loops with different keys do not get in each other's way.**  In whichever order two calls come,
each gets the same answer, and the engine has the same to show for it.  There has to be room for both
builds: free names, and numbers that do not make paths too long.  Where one of them is the last that
fits, the order decides who gets it. -/
theorem independent_calls_commute {settings : Settings} {pipeline : Pipeline} {machine : Machine}
    {s : State} (hs : Reaches (fun _ => True) (.fresh settings pipeline machine) s)
    (hstore : s.engine.pipeline.store = none) {host : Host} {compiles loads : String → String → Bool}
    (hsteady : host.Steady compiles loads)
    (hcalls : ∀ entry iteration pack, host.calls entry iteration pack = [])
    (hroom : (s.workplace host).Ready → (s.workplace host).Room 2) {a b : Call}
    (hapart : Apart host.hash a b) :
    let ab := answerAll (specialize host) [a, b] s
    let ba := answerAll (specialize host) [b, a] s
    ba.1 = ab.1.reverse ∧ ba.2.engine.ledger = ab.2.engine.ledger := by
  obtain ⟨prepared, hprepared⟩ : ∃ prepared : Bool,
      prepared = true ↔ (s.workplace host).Ready ∧ (s.workplace host).Fits := by
    classical exact ⟨decide _, decide_eq_true_iff⟩
  have hserves : Serves host prepared 2 s := ⟨hs.linked, hstore, hprepared, hroom⟩
  obtain ⟨hab, hab'⟩ := hserves.run [a, b] hsteady hcalls (by simpa using hapart)
  obtain ⟨hba, hba'⟩ := hserves.run [b, a] hsteady hcalls (by simpa using hapart.symm)
  refine ⟨?_, ?_⟩
  · rw [hab, hba]
    rfl
  · rw [hab', hba']
    exact add_effect_comm hapart.symm

namespace TwoLoops

/-- A host on which bodies make no calls. -/
def host : Host :=
  Scripted.host (fun t => UInt64.ofNat t.length) "/tmp" (Scripted.load "no library") []

/-- An engine that keeps intermediate files. -/
def start : State :=
  .fresh .default { workDir := none, saveIntermediates := true, store := none }
    ⟨⟨[], [("tmp", .directory [])]⟩, 0, .empty, []⟩

/-- A call whose body can be built. -/
def sum : Call :=
  { Sample.call 0 with site := { Sample.site with compiler := "native-cc" } }

/-- A call of another loop, with a compiler whose libraries have no entry point. -/
def product : Call :=
  { Sample.call 1 with site := { Sample.site with name := some "product", compiler := "nosym-cc" } }

theorem room : (start.workplace host).Room 2 := by
  refine ⟨⟨[0, 1], by decide, rfl, ?_⟩, fun n _ hn => .inl ?_⟩
  · decide +kernel
  · have hnumber : (start.workplace host).number = 0 := rfl
    omega

theorem apart : Apart host.hash sum product :=
  apart_of_name_ne (by decide)

theorem statuses : (answerAll (specialize host) [sum, product] start).1 = [0, 2] := by
  decide +kernel

theorem steady : ∃ compiles loads, host.Steady compiles loads :=
  ⟨_, _, Scripted.host_steady _ _ _ _⟩

end TwoLoops

open TwoLoops in
theorem independent_calls_commute_one_unlinked :
    (start.workplace host).Room 2 ∧ Apart host.hash sum product ∧
      (answerAll (specialize host) [sum, product] start).1 = [0, 2] ∧
      (answerAll (specialize host) [product, sum] start).1 = [2, 0] ∧
      (answerAll (specialize host) [product, sum] start).2.engine.ledger =
        (answerAll (specialize host) [sum, product] start).2.engine.ledger := by
  obtain ⟨compiles, loads, hsteady⟩ := steady
  have hstart : Reaches (fun _ => True) start start := .refl
  obtain ⟨hstatuses, hledger⟩ :=
    independent_calls_commute hstart rfl hsteady (Scripted.host_calls_nil _ _ _) (fun _ => room)
      apart
  rw [statuses] at hstatuses
  exact ⟨room, apart, statuses, hstatuses, hledger⟩

/-! ## Without room -/

/-- A call that asks the compiler takes a number. -/
theorem number_specialize_of_compiled {host : Host} (hwrites : host.WritesTarget) {call : Call}
    {s : State} (hstore : s.engine.pipeline.store = none)
    (h : (specialize host call s).2.engine.pipeline.counts.compilations =
      s.engine.pipeline.counts.compilations + 1) :
    (specialize host call s).2.machine.nextStem = s.machine.nextStem + 1 := by
  rcases workshop_cases host call s with hsame | ⟨rendered, hbuilt⟩
  · have hpipeline : (specialize host call s).2.engine.pipeline = _ := congrArg Prod.fst hsame
    rw [hpipeline] at h
    exact absurd h (Nat.succ_ne_self _).symm
  · have hpipeline : (specialize host call s).2.engine.pipeline =
        (s.engine.pipeline.compileAndLink host rendered call.site.compiler s.machine).2.1 :=
      congrArg Prod.fst hbuilt
    have hnumber : (specialize host call s).2.machine.nextStem =
        (s.engine.pipeline.compileAndLink host rendered call.site.compiler s.machine).2.2.nextStem :=
      congrArg (fun w => w.2.2) hbuilt
    rw [Pipeline.compileAndLink_eq_build hstore] at hpipeline hnumber
    obtain ⟨asked, -, hasked, hle, hle'⟩ :=
      Pipeline.ends_build s.engine.pipeline hwrites rendered call.site.compiler s.machine
    rw [hpipeline] at h
    rw [hnumber]
    omega

/-- Where the next number makes the paths of sources too long, the second of two calls cannot have a
body built if the first had one built. -/
theorem Serves.run_to_limit {host : Host} {compiles loads : String → String → Bool} {s : State}
    (h : Serves host true 1 s) (hsteady : host.Steady compiles loads)
    (hcalls : ∀ entry iteration pack, host.calls entry iteration pack = []) {a b : Call} :
    let first := effect host.hash (Pipeline.outcomeOf true compiles loads) a s.engine.ledger
    let second := effect host.hash (fun _ _ => .unprepared) b (s.engine.ledger.add first)
    let r := answerAll (specialize host) [a, b] s
    first.pipeline.compilations = 1 →
    (∀ i, ¬ Path.Spelled s.machine.files.cwd ((s.workplace host).file i
      (specName (s.machine.nextStem + 1) (Command.sourceExtension b.site.compiler)))) →
    r.1 = [first.status, second.status] ∧
      r.2.engine.ledger = (s.engine.ledger.add first).add second := by
  intro first second r hcompiled hlong
  obtain ⟨hstatus, hledger⟩ := h.hasEffect hsteady hcalls a
  have hlater := h.step hsteady.writes a
  obtain ⟨-, hnext⟩ := next_specialize hsteady.writes a h.store
  have hnumber : (specialize host a s).2.machine.nextStem = s.machine.nextStem + 1 := by
    refine number_specialize_of_compiled hsteady.writes h.store ?_
    rw [← hcompiled]
    exact congrArg (·.tally.pipeline.compilations) hledger
  have hsecond : HasEffect host b (specialize host a s).2
      (effect host.hash (fun _ _ => .unprepared) b (specialize host a s).2.engine.ledger) := by
    refine hasEffect_specialize hlater.linked hcalls
      (Pipeline.comesTo_of_source_too_long hlater.store fun i => ?_)
    have hcwd : (specialize host a s).2.machine.files.cwd = s.machine.files.cwd := hnext.cwd
    have hfile := Workplace.file_eq hnext.cwd hnext.workDir i
      (specName (s.machine.nextStem + 1) (Command.sourceExtension b.site.compiler))
    rw [hnumber, hcwd]
    exact fun hspelled => hlong i (hfile ▸ hspelled)
  rw [hledger] at hsecond
  refine ⟨?_, ?_⟩
  · change [(specialize host a s).1, (specialize host b (specialize host a s).2).1] = _
    rw [hstatus, hsecond.status]
  · change (specialize host b (specialize host a s).2).2.engine.ledger = _
    rw [hsecond.ledger, hledger]

namespace LongPaths

/-- The path `/w` with so many more slashes in front. -/
def padded : Nat → String
  | 0 => "/w"
  | k + 1 => "/" ++ padded k

section

variable (k : Nat)

theorem utf8ByteSize_padded : (padded k).utf8ByteSize = k + 2 := by
  induction k with
  | zero => rfl
  | succ k ih =>
      have hslash : "/".utf8ByteSize = 1 := rfl
      rw [padded, String.utf8ByteSize_append, ih, hslash]
      omega

theorem segments_padded : Path.segments (padded k) = List.replicate (k + 1) "" ++ ["w"] := by
  induction k with
  | zero => decide
  | succ k ih =>
      have hlist : (padded (k + 1)).toList = "".toList ++ '/' :: (padded k).toList := by
        simp [padded]
      rw [Path.segments_append hlist, ih, List.replicate_succ]
      rfl

theorem eq_of_mem_padded {c : Char} (h : c ∈ (padded k).toList) : c = '/' ∨ c = 'w' := by
  induction k with
  | zero => simpa [padded] using h
  | succ k ih =>
      have hlist : c = '/' ∨ c ∈ (padded k).toList := by simpa [padded] using h
      exact hlist.elim .inl ih

theorem getLast?_padded : (padded k).toList.getLast? ≠ some '/' := by
  have hlast : (padded k).toList.getLast? = some 'w' := by
    induction k with
    | zero => rfl
    | succ k ih => simp [padded, List.getLast?_cons, ih]
  rw [hlast]
  decide

theorem padded_ne_empty : padded k ≠ "" := by
  intro hempty
  have hsize := utf8ByteSize_padded k
  rw [hempty] at hsize
  cases hsize

theorem isAbsolute_padded : Path.isAbsolute (padded k) = true := by
  cases k with
  | zero => rfl
  | succ k => simp [Path.isAbsolute, padded]

theorem route_padded (cwd : Place) :
    Path.route cwd (padded k) = List.replicate (k + 1) "" ++ ["w"] := by
  rw [Path.route, isAbsolute_padded, segments_padded]
  rfl

theorem resolve_padded (cwd : Place) : Path.resolve cwd (padded k) = ["w"] := by
  rw [Path.resolve, route_padded, List.foldl_append, Path.foldl_walk_replicate]
  rfl

theorem mem_way_padded {cwd q : Place} (h : q ∈ Path.way cwd (padded k)) :
    q = [] ∨ q = ["w"] := by
  rw [Path.way, route_padded, Path.passed_append, Path.foldl_walk_replicate, resolve_padded] at h
  rcases List.mem_append.1 h with h | h
  · rcases List.mem_append.1 h with h | h
    · exact .inl (Path.mem_passed_replicate h)
    · exact .inl (List.mem_singleton.1 h)
  · exact .inr (List.mem_singleton.1 h)

variable {k}

theorem spelled_padded (h : k + 2 ≤ FileTree.longestPath) (cwd : Place) :
    Path.Spelled cwd (padded k) := by
  refine ⟨padded_ne_empty k, fun hnul => ?_, ?_, fun c hc => ?_⟩
  · exact absurd (eq_of_mem_padded _ hnul) (by decide)
  · rwa [utf8ByteSize_padded]
  · rw [route_padded, List.mem_append, List.mem_singleton] at hc
    rcases hc with hc | rfl
    · rw [List.eq_of_mem_replicate hc]
      decide
    · decide

end

/-- A host whose compilers and loader do all they are asked for. -/
def host : Host :=
  Scripted.host (fun t => UInt64.ofNat t.length) "/tmp" (Scripted.loadNumbered [] []) []

/-- A tree with one directory, `/w`. -/
def files : FileTree :=
  ⟨[], [("w", .directory [])]⟩

/-- An engine that works in `/w`, in a process that has one number with four digits left. -/
def start (k : Nat) : State :=
  .fresh .default { workDir := some (padded k), saveIntermediates := false, store := none }
    ⟨files, 9999, .empty, []⟩

def sum : Call :=
  { Sample.call 0 with site := { Sample.site with compiler := "ok-c++" } }

def product : Call :=
  { Sample.call 1 with
    condition := 3, site := { Sample.site with name := some "product", compiler := "ok-c++" } }

section

variable {k : Nat}

theorem base_start (k : Nat) : ((start k).workplace host).base = padded k := by
  change Path.join _ (padded k) = padded k
  rw [Path.join, isAbsolute_padded]
  rfl

theorem isDirectory_start (h : k + 2 ≤ FileTree.longestPath) :
    files.isDirectory (padded k) = true := by
  rw [FileTree.isDirectory_iff_way]
  refine ⟨spelled_padded h _, fun q hq => ?_⟩
  rcases mem_way_padded k hq with rfl | rfl
  · rfl
  · decide

theorem makeDirectories_start (h : k + 2 ≤ FileTree.longestPath) :
    ((start k).workplace host).files.makeDirectories ((start k).workplace host).workDir =
      (.ok (), files) :=
  FileTree.makeDirectories_of_isDirectory (isDirectory_start h)

theorem made_start (h : k + 2 ≤ FileTree.longestPath) :
    ((start k).workplace host).made = files :=
  congrArg Prod.snd (makeDirectories_start h)

theorem ready_start (h : k + 2 ≤ FileTree.longestPath) : ((start k).workplace host).Ready := by
  refine ⟨congrArg Prod.fst (makeDirectories_start h), ?_⟩
  rw [made_start h, base_start]
  exact isDirectory_start h

theorem room_start (h : k + 2 ≤ FileTree.longestPath) : ((start k).workplace host).Room 1 := by
  refine ⟨⟨[0], by decide, rfl, fun i hi => ?_⟩, fun n hn hlt => .inl ?_⟩
  · obtain rfl := List.mem_singleton.1 hi
    rw [made_start h, Workplace.place, base_start, resolve_padded]
    exact ⟨by decide, by decide⟩
  · have hnumber : ((start k).workplace host).number = 9999 := rfl
    omega

/-- How long the paths of files in working directories are. -/
theorem utf8ByteSize_file (k i : Nat) {x : String} (hx : Path.IsComponent x) :
    (((start k).workplace host).file i x).utf8ByteSize =
      k + 4 + (FileTree.numbered Pipeline.workspaceStart i).utf8ByteSize + x.utf8ByteSize := by
  have hname := Pipeline.isComponent_numbered i
  rw [Workplace.file, base_start,
    Path.utf8ByteSize_join hx (Path.join_ne_empty hname _) (Path.getLast?_join hname _),
    Path.utf8ByteSize_join hname (padded_ne_empty k) (getLast?_padded k), utf8ByteSize_padded]
  omega

theorem fits_start (h : k + 30 ≤ FileTree.longestPath) : ((start k).workplace host).Fits := by
  have hname := Pipeline.isComponent_numbered 0
  have hspelled : Path.Spelled [] (padded k) := spelled_padded (by omega) []
  have hsize := Path.utf8ByteSize_join hname (padded_ne_empty k) (getLast?_padded k)
  rw [utf8ByteSize_padded] at hsize
  have hnumbered : (FileTree.numbered Pipeline.workspaceStart 0).utf8ByteSize = 13 := by decide
  have hheader : Header.fileName.utf8ByteSize = 13 := by decide
  rw [Workplace.Fits, Workplace.file, base_start]
  refine Path.spelled_join (Path.spelled_join hspelled hname (getLast?_padded k) ?_ ?_ ?_)
    isComponent_header (Path.getLast?_join hname _) (by decide) (by decide) ?_
  · exact Workplace.nul_not_mem_numbered 0
  · decide
  · rw [utf8ByteSize_padded]
    omega
  · omega

/-- The source of the build after the next does not fit. -/
theorem not_spelled_source {command : String} (h : Command.sourceExtension command = "cpp")
    (i : Nat) :
    ¬ Path.Spelled (start 4065).machine.files.cwd (((start 4065).workplace host).file i
      (specName ((start 4065).machine.nextStem + 1) (Command.sourceExtension command))) := by
  intro hspelled
  have hshort := hspelled.short
  have hnumber : (start 4065).machine.nextStem + 1 = 10000 := rfl
  have hsize : (specName 10000 "cpp").utf8ByteSize = 14 := by decide
  have hstart : Pipeline.workspaceStart.utf8ByteSize = 7 := by decide
  rw [h, hnumber, utf8ByteSize_file _ i (isComponent_specName 10000 (by decide)),
    FileTree.utf8ByteSize_numbered_eq_max, hsize, hstart, FileTree.longestPath] at hshort
  omega

theorem serves : Serves host true 1 (start 4065) := by
  have hready : ((start 4065).workplace host).Ready := ready_start (by decide)
  refine ⟨Cache.All.empty _, rfl, iff_of_true rfl ⟨hready, fits_start (by decide)⟩, fun _ => ?_⟩
  exact room_start (by decide)

end

theorem apart : Apart host.hash sum product :=
  apart_of_name_ne (by decide)

/-- The key of the loop with this name. -/
def key (name : String) : Key :=
  ⟨some name, "N:4", 17⟩

theorem kept_add_add {l : Ledger} {d e : Effect} (new : Key × String × Nat)
    (hd : d.entry = some new) (he : e.entry = none) :
    ((l.add d).add e).kept = Function.update l.kept new.1 (some new.2) := by
  simp only [Ledger.add, hd, he, Option.elim_some, Option.elim_none]

end LongPaths

open LongPaths in
/-- Without room for both builds the calls get in each other's way.  The path of the work directory has
4067 bytes, the second build would be the first with a number of five digits, and the path of its
source would be too long by one byte. -/
theorem calls_at_limit_do_not_commute :
    (∃ compiles loads, host.Steady compiles loads) ∧
      (∀ entry iteration pack, host.calls entry iteration pack = []) ∧
      (start 4065).engine.pipeline.store = none ∧ Apart host.hash sum product ∧
      (padded 4065).utf8ByteSize = 4067 ∧
      (answerAll (specialize host) [sum, product] (start 4065)).1 = [0, 3] ∧
      (answerAll (specialize host) [product, sum] (start 4065)).1 = [0, 2] ∧
      (answerAll (specialize host) [sum, product] (start 4065)).2.engine.ledger.kept =
        Function.update (fun _ => none) (key "sum") (some ("n=4", 1)) ∧
      (answerAll (specialize host) [product, sum] (start 4065)).2.engine.ledger.kept =
        Function.update (fun _ => none) (key "product") (some ("n=4", 1)) := by
  have hsteady := Scripted.host_steady_of_loads_all (fun t => UInt64.ofNat t.length) "/tmp" []
  have hcalls : ∀ entry iteration pack, host.calls entry iteration pack = [] :=
    Scripted.host_calls_nil _ _ _
  obtain ⟨hab, hab'⟩ := @Serves.run_to_limit host _ _ _ serves hsteady hcalls sum product
    (by decide +kernel) (not_spelled_source (by decide +kernel))
  obtain ⟨hba, hba'⟩ := @Serves.run_to_limit host _ _ _ serves hsteady hcalls product sum
    (by decide +kernel) (not_spelled_source (by decide +kernel))
  rw [hab, hba, hab', hba']
  refine ⟨⟨_, _, hsteady⟩, hcalls, rfl, apart, utf8ByteSize_padded _, ?_, ?_, ?_, ?_⟩
  · decide +kernel
  · decide +kernel
  · rw [kept_add_add (key "sum", "n=4", 1) (by decide +kernel) (by decide +kernel)]
    rfl
  · rw [kept_add_add (key "product", "n=4", 1) (by decide +kernel) (by decide +kernel)]
    rfl

end Loopsmith
