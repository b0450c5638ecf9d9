import Loopsmith.Proofs.Engine.Reach

/-!
# A loop is run once or not at all

A loop that asks for a specialized body relies on the answer.  Zero means that the rest of
the loop has been run, so it must not run it again; anything else means that nothing has
been run, so it has to.  An answer of zero without a run would skip the loop, and a run
without an answer of zero would do its work twice.

`ServedOrBaseline` is the promise for one call, and `exactly_once_or_baseline` says that it is
kept in every state that an engine can get into, for calls from the library and from C, between
calls and inside a running body alike.

The argument goes over the courses of a call.  Five of them answer with the condition and are
quiet.  On the sixth the body runs once, because the calls it makes itself are turned away
and run nothing, and the answer is zero because the body is linked.  That it is
linked is not decided by the call: on a hit it is a fact about the whole past of the
engine (`Reaches.linked`).
-/

namespace Loopsmith

/-- The engine has a body with this artifact. -/
def Engine.Holds (e : Engine) (a : Artifact) : Prop :=
  ∃ k b, e.cache.get? k = some b ∧ b.artifact = some a

/-- What a loop is promised about a call that it makes in state `s`: `r` is the answer and the
state after it. -/
def ServedOrBaseline (host : Host) (iteration : Int64) (condition : Int32) (pack : Pack)
    (s : State) (r : Int32 × State) : Prop :=
  (condition = 0 → r.1 = 0 ∧ s.machine.Quiet r.2.machine) ∧
  (condition ≠ 0 →
    (r.1 = 0 ∧ ∃ a, r.2.engine.Holds a ∧
      s.machine.RanOnce host a.entry iteration pack r.2.machine) ∨
    (r.1 = condition ∧ s.machine.Quiet r.2.machine))

/-- A call that is answered with its condition and runs nothing keeps the promise. -/
theorem ServedOrBaseline.of_quiet {host : Host} {iteration : Int64} {condition : Int32}
    {pack : Pack} {s : State} {r : Int32 × State} (hr : r.1 = condition)
    (hq : s.machine.Quiet r.2.machine) : ServedOrBaseline host iteration condition pack s r :=
  ⟨fun h => ⟨hr.trans h, hq⟩, fun _ => .inr ⟨hr, hq⟩⟩

/-- A call keeps its promise in a state in which every body that it could enter is
linked. -/
theorem servedOrBaseline_specialize {host : Host} {call : Call} {s : State}
    (hlinked : ∀ ps b s', Enters host call s ps b s' → ∃ a, b.artifact = some a) :
    ServedOrBaseline host call.iteration call.condition call.pack s (specialize host call s) := by
  have hcourse := course_specialize host call s
  revert hcourse
  generalize specialize host call s = r
  intro hcourse
  cases hcourse with
  | finished h => exact .of_quiet h.symm (.refl _)
  | refused => exact .of_quiet rfl (.refl _)
  | malformed e => exact .of_quiet rfl (s.claimed.quiet_fail call.site _)
  | deferred ps => exact .of_quiet rfl ((Machine.Quiet.refl _).report _)
  | unbuilt ps e s₁ _ _ _ ho =>
      have hobtain := quiet_obtainBody host call.site ps (call.site.keyOf host.hash ps) s.claimed
      rw [ho] at hobtain
      exact .of_quiet rfl (hobtain.trans (s₁.quiet_fail call.site e))
  | entered ps b s₁ he =>
      obtain ⟨a, ha⟩ := hlinked ps b s₁ he
      refine ⟨fun h => absurd h he.letIn.unfinished, fun _ => .inl ?_⟩
      have hzero : (runObtained host turnAway call b s₁).1 = 0 := by
        rw [runObtained_of_artifact ha]
      have hget := he.get?_eq
      rw [← cache_runObtained host call b s₁] at hget
      exact ⟨hzero, a, ⟨_, b, hget, ha⟩, he.ranOnce ha⟩

/-! ## The status of the body -/

/-- The answer to a call whose body was obtained, and the engine after it, depend on the calls
that the body makes and on nothing else that it does. -/
theorem runObtained_of_calls {host host' : Host} (h : host.calls = host'.calls) (call : Call)
    (b : Body) (s : State) :
    (runObtained host turnAway call b s).1 = (runObtained host' turnAway call b s).1 ∧
      (runObtained host turnAway call b s).2.engine =
        (runObtained host' turnAway call b s).2.engine := by
  cases ha : b.artifact with
  | none => simp only [runObtained, Body.run, ha, and_self]
  | some a =>
      rw [runObtained_of_artifact ha, runObtained_of_artifact ha]
      refine ⟨rfl, ?_⟩
      simp only [State.engine_time, Artifact.run, h]

/-- Hosts that hash and build alike and whose bodies make the same calls get the same answers
and leave the same engine, whatever their bodies return or do to memory. -/
theorem specialize_of_sameTools {host host' : Host} (htools : host.SameTools host')
    (hhash : host.hash = host'.hash) (hcalls : host.calls = host'.calls) (call : Call)
    (s : State) :
    (specialize host call s).1 = (specialize host' call s).1 ∧
      (specialize host call s).2.engine = (specialize host' call s).2.engine := by
  unfold specialize answerWith
  dsimp only
  split
  · exact ⟨rfl, rfl⟩
  · split
    · exact ⟨rfl, rfl⟩
    · unfold attempt
      cases Parameters.parse call.site.parameters with
      | error e => exact ⟨rfl, rfl⟩
      | ok ps =>
          simp only [serve, hhash, obtainBody_sameTools htools]
          split
          · exact ⟨rfl, rfl⟩
          · split
            · exact ⟨rfl, rfl⟩
            · next b s₁ _ =>
                obtain ⟨hstatus, hengine⟩ := runObtained_of_calls hcalls call b
                  (countObtained call (((countInvocation s).setBusy true).engine.cache.contains
                    (Key.of host'.hash call.site.name ps call.site.source)) s₁)
                exact ⟨hstatus, congrArg (fun e : Engine => { e with busy := false }) hengine⟩

/-! ## Every call in every state -/

/-- A call from C keeps the promise that a call keeps, and leads to no other states. -/
theorem Reaches.foreign {allowed : Move → Prop} {settings : Settings} {pipeline : Pipeline}
    {machine : Machine} {s : State} (h : Reaches allowed (.fresh settings pipeline machine) s)
    (hall : ∀ m, allowed m) (host : Host) (iteration : Int64) (condition : Int32)
    (loop : Option ForeignLoop) (pack : Option Pack) :
    ∃ status s',
      specializeForeign host (some s.engine) iteration condition loop pack s.machine =
        (status, some s'.engine, s'.machine) ∧
      ServedOrBaseline host iteration condition (pack.getD .empty) s (status, s') ∧
      Reaches allowed (.fresh settings pipeline machine) s' := by
  rcases specializeForeign_cases host s.engine iteration condition loop pack s.machine with
    ⟨m', hq, heq⟩ | ⟨site, heq⟩
  · exact ⟨condition, { s with machine := m' }, heq, .of_quiet rfl hq, h.move (.world m') (hall _)⟩
  · let call : Call := ⟨iteration, condition, site, pack.getD .empty⟩
    refine ⟨_, (specialize host call s).2, heq, ?_, h.move (.call host call) (hall _)⟩
    show ServedOrBaseline host call.iteration call.condition call.pack s (specialize host call s)
    exact servedOrBaseline_specialize fun ps b s' he => h.linked_of_enters he

/-- **A loop is run once or not at all.**  In every state that an engine can get into, with
any settings and pipeline and after anything that compilers, loaders and bodies did:

* a call from the library keeps the promise `ServedOrBaseline`;
* so does a foreign call, with the empty pack in place of a null one, and it leaves the engine in
  such a state again; without an engine it is answered with its condition and nothing happens;
* what bodies return, or do to memory, makes no difference to the answer;
* every cached body is linked, so running a body that was obtained never fails. -/
theorem exactly_once_or_baseline {settings : Settings} {pipeline : Pipeline} {machine : Machine}
    {s : State} (h : Reaches (fun _ => True) (.fresh settings pipeline machine) s) (host : Host) :
    (∀ call : Call,
      ServedOrBaseline host call.iteration call.condition call.pack s (specialize host call s)) ∧
    (∀ (iteration : Int64) (condition : Int32) (loop : Option ForeignLoop) (pack : Option Pack),
      (∃ status s',
        specializeForeign host (some s.engine) iteration condition loop pack s.machine =
          (status, some s'.engine, s'.machine) ∧
        ServedOrBaseline host iteration condition (pack.getD .empty) s (status, s') ∧
        Reaches (fun _ => True) (.fresh settings pipeline machine) s') ∧
      specializeForeign host none iteration condition loop pack s.machine =
        (condition, none, s.machine)) ∧
    (∀ (call : Call) (enter : EntryPoint → Int64 → Pack → Memory → Int32 × Memory),
      (specialize { host with enter } call s).1 = (specialize host call s).1) ∧
    (∀ e ∈ s.engine.cache.entries, e.2.value.isLinked = true) ∧
    (∀ (site : LoopSite) (ps : Parameters) (key : Key) (b : Body),
      (obtainBody host site ps key s).1 = .ok b →
      ∀ (answer : Answering) (iteration : Int64) (pack : Pack) (s' : State),
        ∃ status, (b.run host answer iteration pack s').1 = .ok status) := by
  refine ⟨?_, ?_, ?_, ?_, ?_⟩
  · intro call
    exact servedOrBaseline_specialize fun ps b s' he => h.linked_of_enters he
  · intro iteration condition loop pack
    exact ⟨h.foreign (fun _ => trivial) host iteration condition loop pack, rfl⟩
  · intro call enter
    have htools : Host.SameTools { host with enter } host := ⟨rfl, rfl, rfl, rfl, rfl⟩
    exact (specialize_of_sameTools htools rfl rfl call s).1
  · intro e he
    obtain ⟨a, ha⟩ := h.linked e he
    rw [Body.isLinked, ha]
    rfl
  · intro site ps key b hb answer iteration pack s'
    have hall := all_obtainBody host site ps key h.linked fun b w => linked_of_buildBody
    obtain ⟨a, ha⟩ := hall.of_get? ((obtained_obtainBody host site ps key s).get?_eq hb)
    refine ⟨(a.run host answer iteration pack s').1, ?_⟩
    simp only [Body.run, ha]

/-- A second call finds the body of the first and runs it once more, though the body
itself calls back. -/
theorem exactly_once_on_second_call :
    ServedOrBaseline Sample.host 1 2 (.ofValues [.int 9]) Sample.served
      (specialize Sample.host (Sample.call 1) Sample.served) ∧
    (specialize Sample.host (Sample.call 1) Sample.served).1 = 0 ∧
    (specialize Sample.host (Sample.call 1) Sample.served).2.machine.runs.map
      (fun r => (r.entry, r.iteration, r.nested)) = [(0, 0, [2]), (0, 1, [2])] := by
  have hreach : Reaches (fun _ => True) Sample.start Sample.served :=
    .move (.call Sample.host (Sample.call 0)) .refl trivial
  refine ⟨(exactly_once_or_baseline hreach Sample.host).1 (Sample.call 1), ?_⟩
  decide +kernel

end Loopsmith
