import Loopsmith.Proofs.Engine.Accounts
import Loopsmith.Proofs.Engine.BuildOnce
import Loopsmith.Proofs.Pipeline.Outcomes
import Mathlib.Logic.Function.Basic

/-!
# What an engine has to show

What an engine has to show for its calls is its `Ledger`: the counters, and what is kept for every key.
The names and numbers of files are not part of it.  What a call does to the ledger is an `Effect`, and
`effect` says which one, from nothing but the guard, the policy and what is kept for the call's own key.

So the effect of one call is the same before and after a call for another key (`effect_add`), and as
effects are increments and an entry for the call's own key, they commute (`Ledger.add_right_comm`).  That
an engine does what `effect` says is `hasEffect_specialize`, which rests on what comes of builds.
-/

namespace Loopsmith

open Pipeline (Outcome)

/-! ## What an engine has to show -/

/-- The counters, and for every key with a body its rendered source and how often it was asked for. -/
structure Ledger where
  settings : Settings
  tally : Tally
  kept : Key → Option (String × Nat)

/-- What there is to see of the cached bodies. -/
def Cache.shown (c : Cache Key Body) (k : Key) : Option (String × Nat) :=
  (c.entry? k).map fun e => (e.value.rendered, e.accesses)

def Engine.ledger (e : Engine) : Ledger :=
  ⟨e.settings, e.tally, e.cache.shown⟩

def EngineCounts.plus (c d : EngineCounts) : EngineCounts :=
  ⟨c.invocations + d.invocations, c.finished + d.finished, c.reentrant + d.reentrant,
    c.deferred + d.deferred, c.cacheHits + d.cacheHits, c.specialized + d.specialized,
    c.failed + d.failed⟩

def CacheCounts.plus (c d : CacheCounts) : CacheCounts :=
  ⟨c.entries + d.entries, c.hits + d.hits, c.misses + d.misses, c.failures + d.failures⟩

def PipelineCounts.plus (c d : PipelineCounts) : PipelineCounts :=
  ⟨c.compilations + d.compilations, c.links + d.links, c.storeHits + d.storeHits⟩

/-- What a call comes to: its answer, what is counted, and what is kept for its key from then on. -/
structure Effect where
  status : Int32
  engine : EngineCounts
  cache : CacheCounts := {}
  pipeline : PipelineCounts := {}
  entry : Option (Key × String × Nat) := none

def Ledger.add (l : Ledger) (d : Effect) : Ledger where
  settings := l.settings
  tally :=
    { engine := l.tally.engine.plus d.engine
      cache := l.tally.cache.plus d.cache
      pipeline := l.tally.pipeline.plus d.pipeline
      busy := l.tally.busy }
  kept := d.entry.elim l.kept fun new => Function.update l.kept new.1 (some new.2)

/-- The effect of a call that finds nothing for its key and has a body built.  Builds come to what
`reached` says of their source and command. -/
def buildingEffect (reached : String → String → Outcome) (call : Call) (ps : Parameters)
    (key : Key) : Effect :=
  match renderSource call.site.source ps with
  | .error _ =>
      { status := call.condition, engine := { invocations := 1, failed := 1 }
        cache := { misses := 1, failures := 1 } }
  | .ok rendered =>
      if reached rendered call.site.compiler = .linked then
        { status := 0, engine := { invocations := 1, specialized := 1 }
          cache := { entries := 1, misses := 1 }, pipeline := Outcome.linked.count {}
          entry := some (key, rendered, 1) }
      else
        { status := call.condition, engine := { invocations := 1, failed := 1 }
          cache := { misses := 1, failures := 1 }
          pipeline := (reached rendered call.site.compiler).count {} }

/-- The effect of a call that is let in, with parameters that can be read. -/
def servingEffect (policy : Policy) (reached : String → String → Outcome) (call : Call)
    (ps : Parameters) (key : Key) : Option (String × Nat) → Effect
  | some (rendered, accesses) =>
      { status := 0, engine := { invocations := 1, cacheHits := 1 }, cache := { hits := 1 }
        entry := some (key, rendered, accesses + 1) }
  | none =>
      if policy.admits (call.site.progress call.iteration) then buildingEffect reached call ps key
      else { status := call.condition, engine := { invocations := 1, deferred := 1 } }

/-- The effect of a call. -/
def effect (hash : TemplateHash) (reached : String → String → Outcome) (call : Call) (l : Ledger) :
    Effect :=
  if call.condition = 0 then { status := 0, engine := { invocations := 1, finished := 1 } }
  else if l.tally.busy then
    { status := call.condition, engine := { invocations := 1, reentrant := 1 } }
  else
    match Parameters.parse call.site.parameters with
    | .error _ => { status := call.condition, engine := { invocations := 1, failed := 1 } }
    | .ok ps =>
        servingEffect l.settings.policy reached call ps (call.site.keyOf hash ps)
          (l.kept (call.site.keyOf hash ps))

/-! ## Effects on different keys -/

/-- The two calls are about different keys, or one of them is about none. -/
def Apart (hash : TemplateHash) (a b : Call) : Prop :=
  ∀ k k', a.site.key? hash = .ok k → b.site.key? hash = .ok k' → k ≠ k'

section

variable {hash : TemplateHash} {reached : String → String → Outcome} {a b call : Call} {l : Ledger}

theorem Apart.symm (h : Apart hash a b) : Apart hash b a :=
  fun k k' hk hk' => (h k' k hk' hk).symm

theorem key?_of_parse {site : LoopSite} {ps : Parameters}
    (h : Parameters.parse site.parameters = .ok ps) :
    site.key? hash = .ok (site.keyOf hash ps) := by
  rw [LoopSite.key?, h]
  rfl

theorem name_of_key? {site : LoopSite} {k : Key} (h : site.key? hash = .ok k) :
    k.name = site.name := by
  rw [LoopSite.key?] at h
  cases hparse : Parameters.parse site.parameters with
  | error e =>
      rw [hparse] at h
      cases h
  | ok ps =>
      rw [hparse] at h
      cases h
      rfl

/-- Loops with different names have different keys. -/
theorem apart_of_name_ne (h : a.site.name ≠ b.site.name) : Apart hash a b := by
  rintro k k' hk hk' rfl
  exact h ((name_of_key? hk).symm.trans (name_of_key? hk'))

theorem eq_of_entry_servingEffect {policy : Policy} {ps : Parameters} {key k : Key}
    {kept : Option (String × Nat)} {shown : String × Nat}
    (h : (servingEffect policy reached call ps key kept).entry = some (k, shown)) : k = key := by
  unfold servingEffect at h
  split at h
  · cases h
    rfl
  · split at h
    · unfold buildingEffect at h
      split at h
      · cases h
      · split at h
        · cases h
          rfl
        · cases h
    · cases h

/-- An effect is on the call's own key. -/
theorem key?_of_entry_effect {k : Key} {shown : String × Nat}
    (h : (effect hash reached call l).entry = some (k, shown)) : call.site.key? hash = .ok k := by
  unfold effect at h
  split at h
  · cases h
  · split at h
    · cases h
    · split at h
      · cases h
      · next ps hparse => rw [key?_of_parse hparse, eq_of_entry_servingEffect h]

/-- What is kept for another key does not change. -/
theorem Ledger.kept_add {d : Effect} {k : Key} (h : ∀ k' shown, d.entry = some (k', shown) → k ≠ k') :
    (l.add d).kept k = l.kept k := by
  rw [Ledger.add]
  cases hentry : d.entry with
  | none => rfl
  | some new => exact Function.update_of_ne (h new.1 new.2 hentry) _ _

/-- **The effect of a call is the same before and after another one.** -/
theorem effect_add (h : Apart hash a b) :
    effect hash reached b (l.add (effect hash reached a l)) = effect hash reached b l := by
  have hkept : ∀ ps, Parameters.parse b.site.parameters = .ok ps →
      (l.add (effect hash reached a l)).kept (b.site.keyOf hash ps) =
        l.kept (b.site.keyOf hash ps) := by
    intro ps hparse
    refine Ledger.kept_add fun k' shown hentry => ?_
    exact (h k' _ (key?_of_entry_effect hentry) (key?_of_parse hparse)).symm
  generalize effect hash reached a l = d at hkept ⊢
  unfold effect
  cases hparse : Parameters.parse b.site.parameters with
  | error e => rfl
  | ok ps =>
      dsimp only
      rw [hkept ps hparse]
      rfl

/-- **Effects on different keys commute.** -/
theorem Ledger.add_right_comm {d e : Effect}
    (h : ∀ k k' shown shown', d.entry = some (k, shown) → e.entry = some (k', shown') → k ≠ k') :
    (l.add d).add e = (l.add e).add d := by
  have htally : ((l.add d).add e).tally = ((l.add e).add d).tally := by
    simp only [add, EngineCounts.plus, CacheCounts.plus, PipelineCounts.plus, Nat.add_right_comm]
  have hkept : ((l.add d).add e).kept = ((l.add e).add d).kept := by
    simp only [add]
    cases hd : d.entry with
    | none => rfl
    | some new =>
        cases he : e.entry with
        | none => rfl
        | some new' => exact Function.update_comm (h _ _ _ _ hd he) _ _ _
  calc (l.add d).add e = ⟨l.settings, ((l.add d).add e).tally, ((l.add d).add e).kept⟩ := rfl
    _ = ⟨l.settings, ((l.add e).add d).tally, ((l.add e).add d).kept⟩ := by rw [htally, hkept]

/-- Two calls for different keys come to the same in either order. -/
theorem add_effect_comm (h : Apart hash a b) :
    (l.add (effect hash reached a l)).add (effect hash reached b l) =
      (l.add (effect hash reached b l)).add (effect hash reached a l) :=
  Ledger.add_right_comm fun _ _ _ _ hd he =>
    h _ _ (key?_of_entry_effect hd) (key?_of_entry_effect he)

end

/-! ## What a call does to the ledger -/

namespace Cache

variable {c : Cache Key Body} {k : Key}

theorem shown_eq_none (h : c.get? k = none) : c.shown k = none := by
  rw [get?, Option.map_eq_none_iff] at h
  rw [shown, h]
  rfl

theorem shown_touch {e : CacheEntry Body} (h : c.entry? k = some e) (hits : Nat) :
    shown { c with entries := touch k c.entries, hits } =
      Function.update c.shown k (some (e.value.rendered, e.accesses + 1)) := by
  funext k'
  rw [shown, entry?_touch, Function.update_apply, h]
  split
  · rfl
  · rfl

theorem shown_append (h : c.get? k = none) (b : Body) (misses : Nat) :
    shown { c with entries := c.entries ++ [(k, ⟨b, 1⟩)], misses } =
      Function.update c.shown k (some (b.rendered, 1)) := by
  funext k'
  rw [shown, entry?_append _ _ _ _ h, Function.update_apply]
  split
  · rfl
  · rfl

end Cache

theorem Pipeline.Outcome.count_eq_plus (outcome : Outcome) (c : PipelineCounts) :
    outcome.count c = c.plus (outcome.count {}) := by
  cases outcome <;> rfl

/-- What a build comes to, where there is a source to build from. -/
theorem buildBody_of_rendered {site : LoopSite} {ps : Parameters} {rendered : String}
    (h : renderSource site.source ps = .ok rendered) (host : Host) (w : Pipeline × Machine) :
    (buildBody host site ps w).1.isOk =
        (w.1.compileAndLink host rendered site.compiler w.2).1.isOk ∧
      (buildBody host site ps w).2 = (w.1.compileAndLink host rendered site.compiler w.2).2 := by
  simp only [buildBody, Body.withParameters, h, Body.link]
  rcases w.1.compileAndLink host rendered site.compiler w.2 with ⟨_ | a, p, m⟩
  · exact ⟨rfl, rfl⟩
  · exact ⟨rfl, rfl⟩

theorem buildBody_of_render_error {site : LoopSite} {ps : Parameters} {e : RenderError}
    (h : renderSource site.source ps = .error e) (host : Host) (w : Pipeline × Machine) :
    buildBody host site ps w = (.error (.render e), w) := by
  simp only [buildBody, Body.withParameters, h]

/-- The call has the effect. -/
structure HasEffect (host : Host) (call : Call) (s : State) (d : Effect) : Prop where
  status : (specialize host call s).1 = d.status
  ledger : (specialize host call s).2.engine.ledger = s.engine.ledger.add d

/-- The engine has changed by the effect. -/
theorem ledger_eq_add {e e' : Engine} {d : Effect} (hsettings : e'.settings = e.settings)
    (hcounts : e'.counts = e.counts.plus d.engine)
    (hcache : e'.tally.cache = e.tally.cache.plus d.cache)
    (hpipeline : e'.pipeline.counts = e.pipeline.counts.plus d.pipeline) (hbusy : e'.busy = e.busy)
    (hkept : e'.ledger.kept = (e.ledger.add d).kept) : e'.ledger = e.ledger.add d := by
  have htally : e'.tally = (e.ledger.add d).tally :=
    calc e'.tally = ⟨e'.counts, e'.tally.cache, e'.pipeline.counts, e'.busy⟩ := rfl
      _ = (e.ledger.add d).tally := by rw [hcounts, hcache, hpipeline, hbusy]; rfl
  calc e'.ledger = ⟨e'.settings, e'.tally, e'.ledger.kept⟩ := rfl
    _ = e.ledger.add d := by rw [hsettings, htally, hkept]; rfl

section

variable {host : Host} {call : Call} {s s₁ : State} {ps : Parameters} {b : Body}
  {reached : String → String → Outcome}

theorem hasEffect_of_not_letIn (h : ¬ LetIn call s) :
    HasEffect host call s (effect host.hash reached call s.engine.ledger) := by
  have hspecialize := @specialize_of_not_letIn host _ _ h
  by_cases hc : call.condition = 0
  · rw [effect, if_pos hc]
    rw [turnAway, if_pos hc] at hspecialize
    exact ⟨by rw [hspecialize]; rfl, by rw [hspecialize]; rfl⟩
  · have hbusy : s.engine.busy = true := by
      cases hb : s.engine.busy with
      | true => rfl
      | false => exact absurd ⟨hc, hb⟩ h
    have htally : s.engine.ledger.tally.busy = true := hbusy
    rw [effect, if_neg hc, if_pos htally]
    rw [turnAway, if_neg hc] at hspecialize
    exact ⟨by rw [hspecialize]; rfl, by rw [hspecialize]; rfl⟩

theorem not_busy_of_letIn (hin : LetIn call s) : ¬ s.engine.ledger.tally.busy = true := by
  have hfree : s.engine.ledger.tally.busy = false := hin.free
  rw [hfree]
  decide

theorem hasEffect_of_malformed (hin : LetIn call s) {e : ParameterError}
    (hparse : Parameters.parse call.site.parameters = .error e) :
    HasEffect host call s (effect host.hash reached call s.engine.ledger) := by
  have hspecialize := specialize_of_malformed hin host hparse
  rw [effect, if_neg hin.unfinished, if_neg (not_busy_of_letIn hin), hparse]
  refine ⟨by rw [hspecialize], ?_⟩
  rw [hspecialize]
  exact ledger_eq_add rfl rfl rfl rfl hin.free.symm rfl

theorem effect_of_letIn (hin : LetIn call s)
    (hparse : Parameters.parse call.site.parameters = .ok ps) :
    effect host.hash reached call s.engine.ledger =
      servingEffect s.engine.settings.policy reached call ps (call.site.keyOf host.hash ps)
        (s.engine.ledger.kept (call.site.keyOf host.hash ps)) := by
  rw [effect, if_neg hin.unfinished, if_neg (not_busy_of_letIn hin), hparse]
  rfl

/-- A call that is deferred finds nothing for its key. -/
theorem hasEffect_of_not_wanted (hin : LetIn call s)
    (hparse : Parameters.parse call.site.parameters = .ok ps)
    (hwanted : ¬ Wanted host call ps s.claimed) :
    HasEffect host call s (effect host.hash reached call s.engine.ledger) := by
  have hspecialize := specialize_of_not_wanted hin hparse hwanted
  obtain ⟨hmiss, hadmits⟩ := not_or.1 hwanted
  have hnone : s.engine.cache.get? (call.site.keyOf host.hash ps) = none := by
    rw [Cache.contains_eq_isSome_get?, Bool.not_eq_true, Option.isSome_eq_false_iff] at hmiss
    exact Option.isNone_iff_eq_none.1 hmiss
  have hkept : s.engine.ledger.kept (call.site.keyOf host.hash ps) = none :=
    Cache.shown_eq_none hnone
  have hadmits : ¬ s.engine.settings.policy.admits (call.site.progress call.iteration) = true :=
    hadmits
  rw [effect_of_letIn hin hparse, hkept, servingEffect, if_neg hadmits]
  refine ⟨by rw [hspecialize], ?_⟩
  rw [hspecialize]
  exact ledger_eq_add rfl rfl rfl rfl hin.free.symm rfl

/-- The engine after a call that obtains a body. -/
theorem engine_specialize_of_asks_ok
    (hcalls : ∀ entry iteration pack, host.calls entry iteration pack = []) (hin : LetIn call s)
    (h : Asks host call s.claimed ps (.ok b) s₁) {a : Artifact} (ha : b.artifact = some a) :
    (specialize host call s).1 = 0 ∧ (specialize host call s).2.engine = { s₁.engine with
      counts := if s.engine.cache.contains (call.site.keyOf host.hash ps) then
          { s₁.engine.counts with cacheHits := s₁.engine.counts.cacheHits + 1 }
        else { s₁.engine.counts with specialized := s₁.engine.counts.specialized + 1 }
      busy := false } := by
  rw [specialize_of_asks_ok hin h, runObtained_of_artifact ha]
  refine ⟨rfl, ?_⟩
  dsimp only [State.setBusy]
  rw [State.engine_time, Artifact.engine_run, hcalls]
  rw [show (s.claimed.obtained host call ps s₁).count (·.turnedAway []) =
    s.claimed.obtained host call ps s₁ from rfl, State.obtained, engine_countObtained]
  rfl

/-- The effect of a call whose body is built, if builds come to what is said of them. -/
theorem buildingEffect_of_ok {w w' : Pipeline × Machine}
    (hreached : ∀ rendered, w.1.ComesTo host rendered call.site.compiler w.2
      (reached rendered call.site.compiler))
    (hbuild : buildBody host call.site ps w = (.ok b, w')) (key : Key) :
    buildingEffect reached call ps key =
        { status := 0, engine := { invocations := 1, specialized := 1 }
          cache := { entries := 1, misses := 1 }, pipeline := Outcome.linked.count {}
          entry := some (key, b.rendered, 1) } ∧
      w'.1.counts = Outcome.linked.count w.1.counts := by
  obtain ⟨hrender, a, -, hlink⟩ := exists_of_buildBody hbuild
  obtain ⟨hresult, hcounts⟩ := hreached b.rendered
  rw [hlink] at hresult hcounts
  have hlinked : reached b.rendered call.site.compiler = .linked := of_decide_eq_true hresult.symm
  rw [hlinked] at hcounts
  rw [buildingEffect, hrender]
  dsimp only
  rw [if_pos hlinked]
  exact ⟨rfl, hcounts⟩

theorem buildingEffect_of_error {w w' : Pipeline × Machine}
    (hreached : ∀ rendered, w.1.ComesTo host rendered call.site.compiler w.2
      (reached rendered call.site.compiler)) {e : SpecializationError}
    (hbuild : buildBody host call.site ps w = (.error e, w')) (key : Key) :
    ∃ outcome : Outcome, buildingEffect reached call ps key =
        { status := call.condition, engine := { invocations := 1, failed := 1 }
          cache := { misses := 1, failures := 1 }, pipeline := outcome.count {} } ∧
      w'.1.counts = outcome.count w.1.counts := by
  rw [buildingEffect]
  cases hrender : renderSource call.site.source ps with
  | error e' =>
      rw [buildBody_of_render_error hrender] at hbuild
      cases hbuild
      exact ⟨.unprepared, rfl, rfl⟩
  | ok rendered =>
      obtain ⟨hok, hafter⟩ := buildBody_of_rendered hrender host w
      obtain ⟨hresult, hcounts⟩ := hreached rendered
      rw [← hok, hbuild] at hresult
      rw [← hafter, hbuild] at hcounts
      dsimp only
      rw [if_neg (of_decide_eq_false hresult.symm)]
      exact ⟨_, rfl, hcounts⟩

theorem servingEffect_of_wanted
    (hnone : s.engine.cache.get? (call.site.keyOf host.hash ps) = none)
    (hwanted : Wanted host call ps s.claimed) :
    servingEffect s.engine.settings.policy reached call ps (call.site.keyOf host.hash ps)
        (s.engine.ledger.kept (call.site.keyOf host.hash ps)) =
      buildingEffect reached call ps (call.site.keyOf host.hash ps) := by
  have hkept : s.engine.ledger.kept (call.site.keyOf host.hash ps) = none :=
    Cache.shown_eq_none hnone
  have hadmits : s.engine.settings.policy.admits (call.site.progress call.iteration) = true := by
    refine hwanted.resolve_left fun hcontains => ?_
    rw [Cache.contains_eq_isSome_get?, show s.claimed.engine.cache.get? _ = _ from hnone] at hcontains
    cases hcontains
  rw [hkept, servingEffect, if_pos hadmits]

/-- A call that asks for a body, once it is known what builds come to. -/
theorem hasEffect_of_asks (hlinked : s.engine.cache.All fun _ b => ∃ a, b.artifact = some a)
    (hcalls : ∀ entry iteration pack, host.calls entry iteration pack = [])
    (hreached : ∀ rendered, s.engine.pipeline.ComesTo host rendered call.site.compiler s.machine
      (reached rendered call.site.compiler)) (hin : LetIn call s)
    {r : Except SpecializationError Body} (h : Asks host call s.claimed ps r s₁) :
    HasEffect host call s (effect host.hash reached call s.engine.ledger) := by
  rw [effect_of_letIn hin h.parsed]
  cases h.fetches with
  | hit b hb =>
      obtain ⟨a, ha⟩ := hlinked.of_get? hb
      obtain ⟨hstatus, hengine⟩ := engine_specialize_of_asks_ok hcalls hin h ha
      obtain ⟨e, hentry, rfl⟩ := Option.map_eq_some_iff.1 hb
      have hkept : s.engine.ledger.kept (call.site.keyOf host.hash ps) =
          some (e.value.rendered, e.accesses) := congrArg (Option.map _) hentry
      have hsome : s.engine.cache.get? (call.site.keyOf host.hash ps) = some e.value := hb
      rw [Cache.contains_eq_isSome_get?, hsome] at hengine
      rw [hkept]
      refine ⟨hstatus, ?_⟩
      rw [hengine]
      refine ledger_eq_add rfl rfl ?_ rfl hin.free.symm (Cache.shown_touch hentry _)
      have hsize := Cache.length_touch (call.site.keyOf host.hash ps) s.engine.cache.entries
      exact congrArg (CacheCounts.mk · (s.engine.cache.hits + 1) s.engine.cache.misses
        s.engine.cache.failures) hsize
  | made b w hb hbuild =>
      obtain ⟨a, ha⟩ := linked_of_buildBody hbuild
      obtain ⟨hstatus, hengine⟩ := engine_specialize_of_asks_ok hcalls hin h ha
      obtain ⟨heffect, hcounts⟩ := buildingEffect_of_ok hreached hbuild
        (call.site.keyOf host.hash ps)
      have hnone : s.engine.cache.get? (call.site.keyOf host.hash ps) = none := hb
      rw [Cache.contains_eq_isSome_get?, hnone] at hengine
      rw [servingEffect_of_wanted hnone h.wanted, heffect]
      refine ⟨hstatus, ?_⟩
      rw [hengine]
      refine ledger_eq_add rfl rfl ?_ ?_ hin.free.symm (Cache.shown_append hb b _)
      · have hsize : (s.engine.cache.entries ++ [(call.site.keyOf host.hash ps,
            (⟨b, 1⟩ : CacheEntry Body))]).length = s.engine.cache.size + 1 := List.length_append
        exact congrArg (CacheCounts.mk · s.engine.cache.hits (s.engine.cache.misses + 1)
          s.engine.cache.failures) hsize
      · exact hcounts.trans (Outcome.count_eq_plus _ _)
  | failed e w hb hbuild =>
      have hspecialize := specialize_of_asks_error hin h
      obtain ⟨outcome, heffect, hcounts⟩ := buildingEffect_of_error hreached hbuild
        (call.site.keyOf host.hash ps)
      have hnone : s.engine.cache.get? (call.site.keyOf host.hash ps) = none := hb
      rw [servingEffect_of_wanted hnone h.wanted, heffect]
      refine ⟨by rw [hspecialize], ?_⟩
      rw [hspecialize]
      exact ledger_eq_add rfl rfl rfl (hcounts.trans (Outcome.count_eq_plus _ _)) hin.free.symm rfl

/-- **Every call has its effect, if builds come to what is said of them.** -/
theorem hasEffect_specialize (hlinked : s.engine.cache.All fun _ b => ∃ a, b.artifact = some a)
    (hcalls : ∀ entry iteration pack, host.calls entry iteration pack = [])
    (hreached : ∀ rendered, s.engine.pipeline.ComesTo host rendered call.site.compiler s.machine
      (reached rendered call.site.compiler)) :
    HasEffect host call s (effect host.hash reached call s.engine.ledger) := by
  by_cases hin : LetIn call s
  · cases hparse : Parameters.parse call.site.parameters with
    | error e => exact hasEffect_of_malformed hin hparse
    | ok ps =>
        by_cases hwanted : Wanted host call ps s.claimed
        · obtain ⟨r, s₁, hasks⟩ := exists_asks hparse hwanted
          exact hasEffect_of_asks hlinked hcalls hreached hin hasks
        · exact hasEffect_of_not_wanted hin hparse hwanted
  · exact hasEffect_of_not_letIn hin

end

end Loopsmith
