import Loopsmith.Proofs.Engine.Reach
import Loopsmith.Proofs.Parameters.RoundTrip
import Mathlib.Data.Set.Function

/-!
# A hit runs the right code

A call that finds a body under its key runs it without rendering anything.  The body was built
by some earlier call, from that call's template and parameters, and only the keys of the two
calls are known to be equal.  A key keeps less than a call says: the parameters in written
form, and of the template a hash.  So it has to be shown that equal keys mean equal
renderings, or a loop could be run with the constants of another.

There are two halves.  Keys tell calls apart (`keyOf_eq_keyOf_iff`): the written form
determines the parameters, because what was read is well-formed, and the hash determines the
template, because it is assumed not to confuse two templates that are in use.  And every cached
body has a past (`BuiltInPast`): some call of this engine, with the same key, rendered it and
built its artifact from the rendering.  Put together, the earlier call had the later one's
template and parameters, so the later one's rendering is the text that was built.
-/

namespace Loopsmith

/-! ## Keys -/

/-- **Keys tell calls apart** whose templates are not confused by the hash. -/
theorem keyOf_eq_keyOf_iff {hash : TemplateHash} {used : Set String} (hinj : Set.InjOn hash used)
    {site site' : LoopSite} (hsite : site.source ∈ used) (hsite' : site'.source ∈ used)
    {ps ps' : Parameters} (hps : ps.WellFormed) (hps' : ps'.WellFormed) :
    site.keyOf hash ps = site'.keyOf hash ps' ↔
      site.name = site'.name ∧ ps = ps' ∧ site.source = site'.source := by
  constructor
  · intro h
    obtain ⟨hname, hparameters, htemplate⟩ := Key.mk.inj h
    exact ⟨hname, Parameters.eq_of_serialize_eq hps hps' hparameters,
      hinj hsite hsite' htemplate⟩
  · rintro ⟨hname, rfl, hsource⟩
    rw [LoopSite.keyOf, LoopSite.keyOf, hname, hsource]

theorem key?_eq_ok_iff {hash : TemplateHash} {site : LoopSite} {k : Key} :
    site.key? hash = .ok k ↔
      ∃ ps, Parameters.parse site.parameters = .ok ps ∧ site.keyOf hash ps = k := by
  unfold LoopSite.key?
  cases Parameters.parse site.parameters with
  | error e => simp [Except.map]
  | ok ps => simp [Except.map]

/-! ## Where cached bodies come from -/

/-- The moves of an engine whose calls all use one hash and the templates in `used`. -/
def Move.UsesTemplates (hash : TemplateHash) (used : Set String) : Move → Prop
  | call host c => host.hash = hash ∧ c.site.source ∈ used
  | _ => True

/-- The body was rendered and built by a call that the engine answered under the key `k`: the
text is the rendering of that call's template, and the artifact was made from the text. -/
def BuiltInPast (allowed : Move → Prop) (start : State) (k : Key) (b : Body) : Prop :=
  ∃ s host call ps a w, Reaches allowed start s ∧ allowed (.call host call) ∧
    Parameters.parse call.site.parameters = .ok ps ∧ call.site.keyOf host.hash ps = k ∧
    renderSource call.site.source ps = .ok b.rendered ∧ b.artifact = some a ∧
    s.engine.pipeline.compileAndLink host b.rendered call.site.compiler s.machine = (.ok a, w)

/-- Every cached body was built in the past of its engine. -/
theorem Reaches.builtInPast {allowed : Move → Prop} {settings : Settings} {pipeline : Pipeline}
    {machine : Machine} {s : State} (h : Reaches allowed (.fresh settings pipeline machine) s) :
    s.engine.cache.All (BuiltInPast allowed (.fresh settings pipeline machine)) := by
  refine h.all ?_
  intro s host call ps b w hs hallowed hparse hbuild
  obtain ⟨hrender, a, ha, hlink⟩ := exists_of_buildBody hbuild
  exact ⟨s, host, call, ps, a, w, hs, hallowed, hparse, rfl, hrender, ha, hlink⟩

/-- A body that was built under a key is the rendering of every site with that key. -/
theorem BuiltInPast.renderSource_eq {hash : TemplateHash} {used : Set String}
    (hinj : Set.InjOn hash used) {start : State} {k : Key} {b : Body}
    (h : BuiltInPast (Move.UsesTemplates hash used) start k b) {site : LoopSite}
    (hsite : site.source ∈ used) {ps : Parameters}
    (hparse : Parameters.parse site.parameters = .ok ps) (hkey : site.keyOf hash ps = k) :
    renderSource site.source ps = .ok b.rendered := by
  obtain ⟨_, host, call, ps', _, _, _, ⟨rfl, hcall⟩, hparse', rfl, hrender, _, _⟩ := h
  obtain ⟨-, rfl, hsource⟩ := (keyOf_eq_keyOf_iff hinj hsite hcall
    (Parameters.wellFormed_of_parse hparse) (Parameters.wellFormed_of_parse hparse')).1 hkey
  rw [hsource]
  exact hrender

/-! ## Hits -/

/-- A call that counts as a hit enters a linked body that was in the cache. -/
theorem exists_enters_of_cacheHits {host : Host} {call : Call} {s : State}
    (hlinked : ∀ ps b s', Enters host call s ps b s' → ∃ a, b.artifact = some a)
    (h : (specialize host call s).2.engine.counts.cacheHits ≠ s.engine.counts.cacheHits) :
    ∃ ps b a s₁, Enters host call s ps b s₁ ∧ b.artifact = some a ∧
      s.engine.cache.get? (call.site.keyOf host.hash ps) = some b ∧
      (specialize host call s).2.machine = (runObtained host turnAway call b s₁).2.machine := by
  have hcourse := course_specialize host call s
  revert h hcourse
  generalize specialize host call s = r
  intro h hcourse
  cases hcourse with
  | finished => exact absurd rfl h
  | refused => exact absurd rfl h
  | malformed => exact absurd rfl h
  | deferred => exact absurd rfl h
  | unbuilt ps e s₁ _ _ _ ho =>
      have hcounts : s₁.engine.counts = s.claimed.engine.counts :=
        congrArg (fun r => r.2.engine.counts) ho.symm
      exact absurd (congrArg EngineCounts.cacheHits hcounts) h
  | entered ps b s₁ he =>
      obtain ⟨a, ha⟩ := hlinked ps b s₁ he
      refine ⟨ps, b, a, s₁, he, ha, he.get?_eq_of_contains ?_, rfl⟩
      -- a body that was built would have been counted elsewhere
      refine Decidable.byContradiction fun hmiss => h ?_
      have hcounts := counts_runObtained ha host call s₁
      rw [he.counts_eq, if_neg hmiss] at hcounts
      have hhits := congrArg EngineCounts.cacheHits hcounts
      exact hhits

/-- **A hit runs the right code.**  In every state of an engine whose calls use one hash and
templates that it does not confuse:

* a body cached under a key is the rendering, text for text, of every site with that key;
* a call that counts as a hit has parameters that can be read and a template that renders, and
  what it runs, once, is an artifact that was built in the past from that very rendering;
* two sites whose parameters can be read have the same key exactly if they have the same name or
  both none, the same parameters in the same order, and the same template. -/
theorem hit_runs_own_rendering {hash : TemplateHash} {used : Set String}
    (hinj : Set.InjOn hash used) {settings : Settings} {pipeline : Pipeline} {machine : Machine}
    {s : State}
    (h : Reaches (Move.UsesTemplates hash used) (.fresh settings pipeline machine) s) :
    (∀ (k : Key) (b : Body), s.engine.cache.get? k = some b →
      ∀ site : LoopSite, site.source ∈ used → site.key? hash = .ok k →
        ∃ ps, Parameters.parse site.parameters = .ok ps ∧
          renderSource site.source ps = .ok b.rendered) ∧
    (∀ (host : Host) (call : Call), host.hash = hash → call.site.source ∈ used →
      (specialize host call s).2.engine.counts.cacheHits ≠ s.engine.counts.cacheHits →
        ∃ (ps : Parameters) (b : Body) (a : Artifact),
          Parameters.parse call.site.parameters = .ok ps ∧
          renderSource call.site.source ps = .ok b.rendered ∧ b.artifact = some a ∧
          BuiltInPast (Move.UsesTemplates hash used) (.fresh settings pipeline machine)
            (call.site.keyOf hash ps) b ∧
          s.machine.RanOnce host a.entry call.iteration call.pack
            (specialize host call s).2.machine) ∧
    (∀ (site site' : LoopSite) (ps ps' : Parameters), site.source ∈ used → site'.source ∈ used →
      Parameters.parse site.parameters = .ok ps → Parameters.parse site'.parameters = .ok ps' →
      (site.key? hash = site'.key? hash ↔
        site.name = site'.name ∧ ps = ps' ∧ site.source = site'.source)) := by
  refine ⟨?_, ?_, ?_⟩
  · intro k b hb site hsite hkey
    obtain ⟨ps, hparse, hkey⟩ := key?_eq_ok_iff.1 hkey
    have hpast := h.builtInPast.of_get? hb
    exact ⟨ps, hparse, hpast.renderSource_eq hinj hsite hparse hkey⟩
  · rintro host call rfl hcall hhit
    obtain ⟨ps, b, a, s₁, he, ha, hb, hmachine⟩ := exists_enters_of_cacheHits
      (fun ps b s' he => h.linked_of_enters he) hhit
    have hpast := h.builtInPast.of_get? hb
    refine ⟨ps, b, a, he.parsed, hpast.renderSource_eq hinj hcall he.parsed rfl, ha, hpast, ?_⟩
    rw [hmachine]
    exact he.ranOnce ha
  · intro site site' ps ps' hsite hsite' hparse hparse'
    rw [← keyOf_eq_keyOf_iff hinj hsite hsite' (Parameters.wellFormed_of_parse hparse)
      (Parameters.wellFormed_of_parse hparse')]
    simp [LoopSite.key?, hparse, hparse', Except.map]

/-- A second call whose parameters are spelled another way is a hit, and runs what its own
template and parameters render to. -/
theorem hit_runs_own_rendering_respelled :
    Set.InjOn Sample.host.hash {Sample.site.source, "n"} ∧
    (specialize Sample.host Sample.respelled Sample.served).2.engine.counts.cacheHits ≠
      Sample.served.engine.counts.cacheHits ∧
    ∃ (ps : Parameters) (b : Body) (a : Artifact),
      Parameters.parse Sample.respelled.site.parameters = .ok ps ∧
      renderSource Sample.respelled.site.source ps = .ok b.rendered ∧ b.artifact = some a ∧
      Sample.served.machine.RanOnce Sample.host a.entry 1 Sample.respelled.pack
        (specialize Sample.host Sample.respelled Sample.served).2.machine := by
  have hinj : Set.InjOn Sample.host.hash {Sample.site.source, "n"} := by
    have hne : Sample.host.hash Sample.site.source ≠ Sample.host.hash "n" := by decide
    rintro x (rfl | rfl) y (rfl | rfl) hxy
    · rfl
    · exact absurd hxy hne
    · exact absurd hxy.symm hne
    · rfl
  have hreach : Reaches (Move.UsesTemplates Sample.host.hash {Sample.site.source, "n"})
      Sample.start Sample.served :=
    .move (.call Sample.host (Sample.call 0)) .refl ⟨rfl, .inl rfl⟩
  have hhit : (specialize Sample.host Sample.respelled Sample.served).2.engine.counts.cacheHits ≠
      Sample.served.engine.counts.cacheHits := by decide +kernel
  obtain ⟨ps, b, a, hparse, hrender, ha, -, hran⟩ :=
    (hit_runs_own_rendering hinj hreach).2.1 Sample.host Sample.respelled rfl (.inl rfl) hhit
  exact ⟨hinj, hhit, ps, b, a, hparse, hrender, ha, hran⟩

end Loopsmith
