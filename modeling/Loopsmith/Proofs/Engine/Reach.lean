import Loopsmith.Engine.Foreign
import Loopsmith.Host.Scripted
import Loopsmith.Proofs.Engine.Course

/-!
# The states of an engine

An engine is made with an empty cache and a free guard.  From then on three things can
happen to it: a call is answered, its pipeline is used directly, or the rest of the
machine changes by other hands.  Each call comes with a host of its own, so compilers,
loaders and bodies may do something else every time.

`Reaches` collects the states that such moves lead to.  They include those in which a body
is entered, and a move from there is something that happens while the body runs; a call
among them is one that the body makes itself.  The moves that are allowed are a
parameter, because some facts about an engine hold only if, say, the pipeline is left
alone, or if all calls agree on the hash of templates.

`Reaches.all` is the induction on which statements about cached bodies rest: what holds of
every body that a call can build holds of every cached body, in every such state.
-/

namespace Loopsmith

/-! ## Moves -/

/-- Something that can happen to an engine. -/
inductive Move where
  | call (host : Host) (call : Call)
  /-- The pipeline is used directly. -/
  | build (host : Host) (rendered command : String)
  /-- Files, memory or the rest of the machine change by other hands. -/
  | world (machine : Machine)

def Move.apply : Move → State → State
  | call host c, s => (specialize host c s).2
  | build host rendered command, s =>
      let built := s.engine.pipeline.compileAndLink host rendered command s.machine
      { engine := { s.engine with pipeline := built.2.1 }, machine := built.2.2 }
  | world machine, s => { s with machine }

/-- The states reached from `start` by allowed moves, also while bodies run. -/
inductive Reaches (allowed : Move → Prop) (start : State) : State → Prop
  | refl : Reaches allowed start start
  | move {s : State} (m : Move) : Reaches allowed start s → allowed m →
      Reaches allowed start (m.apply s)
  | enter {s s' : State} (host : Host) (call : Call) (ps : Parameters) (b : Body) :
      Reaches allowed start s → allowed (.call host call) → Enters host call s ps b s' →
      Reaches allowed start s'

/-- A new engine on some machine. -/
def State.fresh (settings : Settings) (pipeline : Pipeline) (machine : Machine) : State :=
  ⟨.ofPipeline settings pipeline, machine⟩

/-! ## Cached bodies -/

/-- **What holds of every body that a call can build holds of every cached body.** -/
theorem Reaches.all {allowed : Move → Prop} {settings : Settings} {pipeline : Pipeline}
    {machine : Machine} {s : State} (h : Reaches allowed (.fresh settings pipeline machine) s)
    {P : Key → Body → Prop}
    (hbuilt : ∀ s host call ps b w, Reaches allowed (.fresh settings pipeline machine) s →
      allowed (.call host call) → Parameters.parse call.site.parameters = .ok ps →
      buildBody host call.site ps (s.engine.pipeline, s.machine) = (.ok b, w) →
      P (call.site.keyOf host.hash ps) b) : s.engine.cache.All P := by
  induction h with
  | refl => exact Cache.All.empty P
  | @move s m hs hm ih =>
      cases m with
      | call host c => exact all_specialize ih fun ps b w hp => hbuilt s host c ps b w hs hm hp
      | build host rendered command => exact ih
      | world machine => exact ih
  | @enter s s' host c ps b hs hm he ih =>
      exact he.all ih fun b w => hbuilt s host c ps b w hs hm he.parsed

/-- Every cached body is linked. -/
theorem Reaches.linked {allowed : Move → Prop} {settings : Settings} {pipeline : Pipeline}
    {machine : Machine} {s : State} (h : Reaches allowed (.fresh settings pipeline machine) s) :
    s.engine.cache.All fun _ b => ∃ a, b.artifact = some a := by
  refine h.all ?_
  intro s host call ps b w _ _ _ hb
  exact linked_of_buildBody hb

/-- A body that a call enters is linked. -/
theorem Reaches.linked_of_enters {allowed : Move → Prop} {settings : Settings}
    {pipeline : Pipeline} {machine : Machine} {s s' : State}
    (h : Reaches allowed (.fresh settings pipeline machine) s) {host : Host} {call : Call}
    {ps : Parameters} {b : Body} (he : Enters host call s ps b s') :
    ∃ a, b.artifact = some a := by
  have hall := he.all h.linked fun b w hb => linked_of_buildBody hb
  exact hall.of_get? he.get?_eq

/-! ## Calls from C -/

/-- **The engine that C gets is a new one**, with the settings of the environment. -/
theorem exists_fresh_of_startForeign {home : Option String} {env : Environment} {m m' : Machine}
    {e : Engine} (h : startForeign home env m = (some e, m')) :
    ∃ settings pipeline, (Settings.ofEnvironment home env).1 = .ok settings ∧
      (⟨e, m'⟩ : State) = .fresh settings pipeline m' := by
  unfold startForeign at h
  split at h
  · cases h
  · next e' m₁ hengine =>
      cases h
      unfold Engine.ofEnvironment at hengine
      dsimp only at hengine
      split at hengine
      · cases hengine
      · split at hengine
        · cases hengine
        · next settings hsettings =>
            cases hengine
            exact ⟨settings, _, hsettings, rfl⟩

/-- A call from C is turned away before the engine is asked, or it is a call like any
other, with the empty pack in place of none. -/
theorem specializeForeign_cases (host : Host) (e : Engine) (iteration : Int64)
    (condition : Int32) (loop : Option ForeignLoop) (pack : Option Pack) (m : Machine) :
    (∃ m', m.Quiet m' ∧
      specializeForeign host (some e) iteration condition loop pack m = (condition, some e, m')) ∨
    ∃ site, specializeForeign host (some e) iteration condition loop pack m =
      ((specialize host ⟨iteration, condition, site, pack.getD .empty⟩ ⟨e, m⟩).1,
        some (specialize host ⟨iteration, condition, site, pack.getD .empty⟩ ⟨e, m⟩).2.engine,
        (specialize host ⟨iteration, condition, site, pack.getD .empty⟩ ⟨e, m⟩).2.machine) := by
  cases loop with
  | none => exact .inl ⟨m, .refl m, rfl⟩
  | some l =>
      cases hs : l.site? with
      | none =>
          refine .inl ⟨m.report .badStrings, (Machine.Quiet.refl m).report _, ?_⟩
          simp only [specializeForeign, hs]
      | some site =>
          refine .inr ⟨site, ?_⟩
          simp only [specializeForeign, hs]

/-! ## An engine to try things on -/

namespace Sample

def site : LoopSite :=
  { name := some "sum", source := "n=/*<DOPING N >*/", parameters := "N:4", compiler := "ok-cc",
    first := 0, bound := 10 }

/-- The call of an iteration, with one argument. -/
def call (iteration : Int64) : Call :=
  ⟨iteration, 2, site, .ofValues [.int 9]⟩

/-- The call of iteration 1 from a site that spells its parameters another way. -/
def respelled : Call :=
  { call 1 with site := { site with parameters := " N : 4 " } }

/-- A host on which every compilation succeeds and every body calls back once. -/
def host : Host :=
  Scripted.host (fun t => UInt64.ofNat t.length) "/tmp" (Scripted.loadNumbered [] []) [call 3]

def start : State :=
  .fresh .default { workDir := none, saveIntermediates := false, store := none }
    ⟨.empty, 0, .empty, []⟩

/-- The state after a call that built its body. -/
def served : State :=
  (Move.call host (call 0)).apply start

/-- The key of the loop. -/
def key : Key :=
  site.keyOf host.hash ⟨[("N", "4")]⟩

/-- A call of the loop whose compiler fails. -/
def miscompiled : Call :=
  { call 0 with site := { site with compiler := "fail-cc" } }

/-- A call whose parameters cannot be read. -/
def malformed : Call :=
  { call 0 with site := { site with parameters := "N" } }

end Sample
end Loopsmith
