import Loopsmith.Cli.Run
import Loopsmith.Host.Scripted
import Mathlib.Data.List.Infix

/-!
# What a failed run says

A run that fails should say why on the error output.  If the template or the parameters are at
fault it has shown a diagnostic by the time it fails, and nothing is added; otherwise the failure is
explained at the end.  The end knows the two kinds apart by the wording of the failure alone: it
looks for two phrases that are meant to stand for failures which have been shown.

Some failures quote a path, and a path can contain any words.  So the rule comes to more than it
should: a file that cannot be read, or a log that cannot be opened, is passed over in silence if
one of the phrases occurs in its path (`isSilenced_iff`), and this is the only way in which a
failure can go untold (`untold_iff_misleading_path`).  The words in front of the path play no part,
since no end of them can begin one of the phrases (`infix_append_iff`).
-/

namespace Loopsmith

/-- What stands in front of a text plays no part in whether `needle` occurs, if no end of it can
begin the needle or contain it. -/
theorem Text.infix_append_iff {needle lead : List Char}
    (h : ∀ s ∈ lead.tails, s ≠ [] → ¬ s <+: needle ∧ ¬ needle <+: s) (cs : List Char) :
    needle <:+: lead ++ cs ↔ needle <:+: cs := by
  induction lead with
  | nil => rfl
  | cons c lead ih =>
      rw [List.tails_cons, List.forall_mem_cons] at h
      obtain ⟨⟨hbegin, hwithin⟩, hrest⟩ := h.imp_left (· (List.cons_ne_nil c lead))
      have hnot : ¬ needle <+: (c :: lead) ++ cs := by
        intro hneedle
        rcases List.prefix_or_prefix_of_prefix hneedle (List.prefix_append _ cs) with hpre | hpre
        · exact hwithin hpre
        · exact hbegin hpre
      rw [List.cons_append] at hnot ⊢
      rw [List.infix_cons_iff, or_iff_right hnot, ih hrest]

namespace Cli

/-! ## The wording of a failure -/

/-- One of the phrases that failures are recognized by occurs in a path. -/
def Misleading (path : String) : Prop :=
  Failure.renderingFailed.toList <:+: path.toList ∨
    Failure.invalidParameters.toList <:+: path.toList

namespace Failure

/-- The path that the wording of a failure quotes. -/
def path? : Failure → Option String
  | logging path _ | reading path _ => some path
  | _ => none

/-- The failure quotes a misleading path. -/
def Misleads (f : Failure) : Prop :=
  ∃ path, f.path? = some path ∧ Misleading path

/-- What quotes a path has not been shown. -/
theorem Misleads.diagnostic?_eq {f : Failure} (h : f.Misleads) : f.diagnostic? = none := by
  obtain ⟨path, hpath, -⟩ := h
  cases f with
  | logging path e => rfl
  | reading path e => rfl
  | settings e => rfl
  | building e => rfl
  | parameters e => cases hpath
  | rendering path e => cases hpath

theorem isSilenced_iff_of_context {f : Failure} {text : String} (h : f.context = text) :
    f.isSilenced = true ↔ renderingFailed.toList <:+: text.toList ∨
      invalidParameters.toList <:+: text.toList := by
  rw [isSilenced, Bool.or_eq_true, Text.occursIn_iff, Text.occursIn_iff, h]

/-- A wording that quotes a path is taken for one of the phrases exactly if the path is. -/
theorem isSilenced_iff_of_quotes {f : Failure} {path : String} (lead : String)
    (hcontext : f.context = lead ++ path)
    (hlead : ∀ phrase ∈ [renderingFailed, invalidParameters], ∀ s ∈ lead.toList.tails, s ≠ [] →
      ¬ s <+: phrase.toList ∧ ¬ phrase.toList <+: s) :
    f.isSilenced = true ↔ Misleading path := by
  rw [isSilenced_iff_of_context hcontext, String.toList_append, Misleading,
    Text.infix_append_iff (hlead _ List.mem_cons_self),
    Text.infix_append_iff (hlead _ (List.mem_cons_of_mem _ List.mem_cons_self))]

/-- **When the explanation is left out**: if there was a diagnostic, or if the path misleads. -/
theorem isSilenced_iff (f : Failure) :
    f.isSilenced = true ↔ f.diagnostic?.isSome = true ∨ f.Misleads := by
  have hquoting {path : String} (hpath : f.path? = some path)
      (hiff : f.isSilenced = true ↔ Misleading path) (hnone : f.diagnostic? = none) :
      f.isSilenced = true ↔ f.diagnostic?.isSome = true ∨ f.Misleads := by
    rw [hiff, hnone, Misleads, hpath]
    simp
  have hplain (text : String) (hpath : f.path? = none) (hcontext : f.context = text)
      (hiff : renderingFailed.toList <:+: text.toList ∨
        invalidParameters.toList <:+: text.toList ↔ f.diagnostic?.isSome = true) :
      f.isSilenced = true ↔ f.diagnostic?.isSome = true ∨ f.Misleads := by
    rw [isSilenced_iff_of_context hcontext, hiff, Misleads, hpath]
    simp
  cases f with
  | logging path e =>
      exact hquoting rfl (isSilenced_iff_of_quotes "failed to open log file " rfl (by decide)) rfl
  | reading path e =>
      exact hquoting rfl (isSilenced_iff_of_quotes "failed to read " rfl (by decide)) rfl
  | settings e =>
      cases e with
      | noHome => exact hplain SettingsError.noHome.message rfl rfl (by decide)
  | parameters e => exact hplain invalidParameters rfl rfl (iff_of_true (by decide) rfl)
  | rendering path e => exact hplain renderingFailed rfl rfl (iff_of_true (by decide) rfl)
  | building e =>
      exact hplain "failed to build specialized library" rfl rfl
        (iff_of_false (by decide) Bool.false_ne_true)

end Failure

/-! ## Diagnostics -/

/-- The template and the parameters that a task is about. -/
def Task.input? : Task → Option (String × String)
  | .render path parameters | .build path parameters _ _ | .run path parameters _ _ =>
      some (path, parameters)
  | .header => none

/-- A diagnostic shows what is wrong with the parameters or else with the template. -/
inductive Shows (files : FileTree) (path parameters : String) : Diagnostic → Prop where
  | parameters {e : ParameterError} (h : Parameters.parse parameters = .error e) :
      Shows files path parameters (.ofParameterError "<parameters>" e)
  | template {source : String} {ps : Parameters} {e : RenderError}
      (hread : files.readText path = .ok source) (hparse : Parameters.parse parameters = .ok ps)
      (h : renderSource source ps = .error e) :
      Shows files path parameters (.ofRenderError path e)

theorem shows_of_renderFile {host : Host} {path parameters : String} {w w' : Progress}
    {f : Failure} {d : Diagnostic} (h : renderFile host path parameters w = (.error f, w'))
    (hd : f.diagnostic? = some d) : Shows w.machine.files path parameters d := by
  unfold renderFile at h
  split at h
  · cases h
    cases hd
  · next source hread =>
      split at h
      · next e hparse =>
          cases h
          cases hd
          exact .parameters hparse
      · next ps hparse =>
          dsimp only at h
          split at h
          · next e hrender =>
              cases h
              cases hd
              exact .template hread hparse hrender
          · cases h

theorem diagnostic?_of_buildLibrary {host : Host} {p : Pipeline} {rendered command : String}
    {w w' : Progress} {f : Failure}
    (h : buildLibrary host p rendered command w = (.error f, w')) : f.diagnostic? = none := by
  unfold buildLibrary at h
  dsimp only at h
  split at h
  · cases h
    rfl
  · cases h

theorem shows_of_buildFile {host : Host} {settings : Settings} {keep : Bool}
    {path parameters compiler : String} {w w' : Progress} {f : Failure} {d : Diagnostic}
    (h : buildFile host settings keep path parameters compiler w = (.error f, w'))
    (hd : f.diagnostic? = some d) : Shows w.machine.files path parameters d := by
  unfold buildFile at h
  split at h
  · next hrender =>
      cases h
      exact shows_of_renderFile hrender hd
  · dsimp only at h
    split at h
    · next hbuild =>
        cases h
        rw [diagnostic?_of_buildLibrary hbuild] at hd
        cases hd
    · cases h

/-- A diagnostic is about what the task was given. -/
theorem shows_of_perform {host : Host} {settings : Settings} {task : Task} {w w' : Progress}
    {f : Failure} {d : Diagnostic} (h : perform host settings task w = (.error f, w'))
    (hd : f.diagnostic? = some d) :
    ∃ path parameters, task.input? = some (path, parameters) ∧
      Shows w.machine.files path parameters d := by
  cases task with
  | header => cases h
  | render path parameters => exact ⟨path, parameters, rfl, shows_of_renderFile h hd⟩
  | build path parameters compiler keep =>
      refine ⟨path, parameters, rfl, ?_⟩
      simp only [perform] at h
      split at h
      · next hbuild =>
          cases h
          exact shows_of_buildFile hbuild hd
      · cases h
  | run path parameters compiler iteration =>
      refine ⟨path, parameters, rfl, ?_⟩
      simp only [perform] at h
      split at h
      · next hbuild =>
          cases h
          exact shows_of_buildFile hbuild hd
      · cases h

/-! ## The whole run -/

/-- The notice says that there was this failure. -/
def Notice.Tells (f : Failure) : Notice → Prop
  | .diagnostic d => f.diagnostic? = some d
  | .failure f' => f' = f
  | _ => False

/-- The files once the log has been opened. -/
def filesAtStart (env : Environment) (call : Invocation) (m : Machine) : FileTree :=
  (Logger.start (logSettings env call) m.files).2

/-- A task that fails has shown its events, and then the diagnostic if there is one. -/
theorem attempt_failed {host : Host} {home : Option String} {env : Environment}
    {call : Invocation} {m : Machine} {f : Failure}
    (h : (attempt host home env call m).result = .failed f) :
    (∃ events : List Event, (attempt host home env call m).notices =
      events.map .event ++ f.diagnostic?.toList.map .diagnostic) ∧
    ∀ d, f.diagnostic? = some d → ∃ path parameters,
      call.task.input? = some (path, parameters) ∧
        Shows (filesAtStart env call m) path parameters d := by
  unfold filesAtStart
  unfold attempt at h ⊢
  split at h
  · cases h
  · next path e files hstart =>
      cases h
      rw [hstart]
      exact ⟨⟨[], rfl⟩, by rintro d ⟨⟩⟩
  · next logger logEvents files hstart =>
      rw [hstart]
      dsimp only at h ⊢
      generalize hstarted : Machine.reportAll { m with files }
        (logEvents ++ (Settings.ofEnvironment home env).2) = started at h ⊢
      have hfiles : started.files = files := by rw [← hstarted]; rfl
      cases hperform : performIf host (Settings.ofEnvironment home env).1 call.task
          ⟨started, .empty⟩ with
      | mk result w =>
          rw [hperform] at h
          cases result with
          | ok out => cases h
          | error f' =>
              cases h
              refine ⟨⟨_, rfl⟩, fun d hd => ?_⟩
              unfold performIf at hperform
              split at hperform
              · cases hperform
                cases hd
              · have hshows := shows_of_perform hperform hd
                rwa [hfiles] at hshows

/-- What goes to the error output when a task fails. -/
theorem notices_run {host : Host} {home : Option String} {env : Environment} {args : List String}
    {call : Invocation} {m : Machine} {f : Failure} (hcall : Invocation.read args = .ok call)
    (hfailed : (attempt host home env call m).result = .failed f) :
    (run host home env args m).exitCode = 1 ∧
      (run host home env args m).notices = (attempt host home env call m).notices ++
        if f.isSilenced then [] else [.failure f] := by
  unfold run conclude
  rw [hcall]
  dsimp only
  rw [hfailed]
  exact ⟨rfl, rfl⟩

/-- **Only a misleading path keeps a failure from being told.**  If a task fails, the run ends
with exit code 1, and:

* the failure is told, by a diagnostic or by the explanation at the end, exactly if it does not
  quote a path in which one of the two phrases occurs;
* the explanation is left out exactly if the diagnostic was shown before the failure was raised, or
  if the path misleads;
* a diagnostic that was shown belongs to the failure, and shows what is wrong with the parameters or
  with the template that the task was given. -/
theorem untold_iff_misleading_path {host : Host} {home : Option String} {env : Environment}
    {args : List String} {call : Invocation} {m : Machine} {f : Failure}
    (hcall : Invocation.read args = .ok call)
    (hfailed : (attempt host home env call m).result = .failed f) :
    let shown := (attempt host home env call m).notices
    let ended := run host home env args m
    ended.exitCode = 1 ∧
      ((∃ n ∈ ended.notices, n.Tells f) ↔ ¬ f.Misleads) ∧
      (.failure f ∉ ended.notices ↔
        (∃ d, f.diagnostic? = some d ∧ .diagnostic d ∈ shown) ∨ f.Misleads) ∧
      ∀ d, .diagnostic d ∈ shown → f.diagnostic? = some d ∧
        ∃ path parameters, call.task.input? = some (path, parameters) ∧
          Shows (filesAtStart env call m) path parameters d := by
  intro shown ended
  obtain ⟨hexit, hnotices⟩ := notices_run hcall hfailed
  obtain ⟨⟨events, hevents⟩, hshows⟩ := attempt_failed hfailed
  have hshown (d : Diagnostic) : .diagnostic d ∈ shown ↔ f.diagnostic? = some d := by
    simp [shown, hevents]
  have hexplained : .failure f ∈ ended.notices ↔ f.isSilenced = false := by
    simp [ended, hnotices, hevents]
  have hsome : f.diagnostic?.isSome = true ↔
      ∃ d, f.diagnostic? = some d ∧ .diagnostic d ∈ shown := by
    simp [hshown, Option.isSome_iff_exists]
  have hsilenced : f.isSilenced = true ↔
      (∃ d, f.diagnostic? = some d ∧ .diagnostic d ∈ shown) ∨ f.Misleads := by
    rw [f.isSilenced_iff, hsome]
  refine ⟨hexit, ⟨?_, ?_⟩, ?_, ?_⟩
  · rintro ⟨n, hn, htells⟩ hmisleads
    cases n with
    | diagnostic d => exact absurd (hmisleads.diagnostic?_eq.symm.trans htells) (by simp)
    | failure f' =>
        have hf : f' = f := htells
        rw [hf, hexplained] at hn
        exact absurd (hsilenced.2 (.inr hmisleads)) (by simp [hn])
    | event e => exact htells
    | crash e => exact htells
    | usage stop => exact htells
  · intro hnot
    by_cases hdiagnostic : ∃ d, f.diagnostic? = some d ∧ .diagnostic d ∈ shown
    · obtain ⟨d, hd, hmem⟩ := hdiagnostic
      exact ⟨.diagnostic d, by rw [hnotices]; exact List.mem_append_left _ hmem, hd⟩
    · have hsaid : f.isSilenced = false := by
        rw [Bool.eq_false_iff, ne_eq, hsilenced, not_or]
        exact ⟨hdiagnostic, hnot⟩
      exact ⟨.failure f, hexplained.2 hsaid, rfl⟩
  · rw [hexplained, Bool.not_eq_false, hsilenced]
  · intro d hd
    exact ⟨(hshown d).1 hd, hshows d ((hshown d).1 hd)⟩

namespace Sample

def host : Host :=
  Scripted.host (fun _ => 0) "/tmp" (Scripted.loadNumbered [] []) []

/-- A file with a misleading name, whose template has a name in it. -/
def machine : Machine :=
  ⟨⟨[], [("invalid parameters.c", .file (Text.bytesOf "/*<DOPING N >*/"))]⟩, 0, .empty, []⟩

def rendering (path : String) : Invocation :=
  ⟨false, 0, .render path ""⟩

end Sample

/-- A template without a value for its name is shown, although its path says something else. -/
theorem untold_iff_misleading_path_unbound :
    let f : Failure := .rendering "invalid parameters.c" (.unbound "N" ⟨0, 15⟩)
    Invocation.read ["render", "invalid parameters.c"] =
        .ok (Sample.rendering "invalid parameters.c") ∧
      (attempt Sample.host none (fun _ => none) (Sample.rendering "invalid parameters.c")
        Sample.machine).result = .failed f ∧
      ∃ n ∈ (run Sample.host none (fun _ => none) ["render", "invalid parameters.c"]
        Sample.machine).notices, n.Tells f := by
  intro f
  have hcall : Invocation.read ["render", "invalid parameters.c"] =
      .ok (Sample.rendering "invalid parameters.c") := by decide
  have hfailed : (attempt Sample.host none (fun _ => none)
      (Sample.rendering "invalid parameters.c") Sample.machine).result = .failed f := by
    decide +kernel
  have h := untold_iff_misleading_path hcall hfailed
  refine ⟨hcall, hfailed, h.2.1.2 ?_⟩
  rintro ⟨path, hpath, -⟩
  cases hpath

/-- A template that is not there, under a name that has one of the phrases in it: the run fails
and says nothing at all. -/
theorem failure_untold :
    (attempt Sample.host none (fun _ => none) (Sample.rendering "lost invalid parameters.c")
        Sample.machine).result = .failed (.reading "lost invalid parameters.c" .notFound) ∧
      (run Sample.host none (fun _ => none) ["render", "lost invalid parameters.c"]
        Sample.machine).exitCode = 1 ∧
      (run Sample.host none (fun _ => none) ["render", "lost invalid parameters.c"]
        Sample.machine).notices.isEmpty = true := by
  decide +kernel

end Cli
end Loopsmith
