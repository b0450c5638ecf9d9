import Loopsmith.Proofs.Engine.Reach
import Mathlib.Data.List.Induction

/-!
# The life of a body

A body is rendered when it is made, and that is all that is fixed about it.  From then on it may be
linked and run in any order, with any pipeline and on any machine, and a link may fail for reasons
that have nothing to do with the body.  Its life has two parts all the same.  Up to the first link
that succeeds it is what it was when it was made: it refuses to run, and each link is a fresh
attempt, whatever came of those before.  From then on it has the library that this link found or
built, and nothing takes it away: it runs, and a further link does nothing at all, not even with a
command that could not work.

`Scene` is a body with everything around it, and `Scene.course` goes through a list of uses.  In
between anything may happen to the engines and to the machine (`Use.meanwhile`).  `Stands` says in
which of the two parts of its life a body is after some uses; a use keeps it (`Stands.use`), and
the rest is read off from it.
-/

namespace Loopsmith
namespace Body

variable {ι : Type} [DecidableEq ι]

/-- A body, the engines whose pipelines it may be linked with, and the machine. -/
structure Scene (ι : Type) where
  body : Body
  engines : ι → Engine
  machine : Machine

/-- Something that happens around a body. -/
inductive Use (ι : Type) where
  /-- The body is linked with the pipeline of an engine. -/
  | link (host : Host) (i : ι) (command : String)
  /-- The body is run, and calls an engine while it runs. -/
  | run (host : Host) (i : ι) (answer : Answering) (iteration : Int64) (pack : Pack)
  /-- The body is left alone. -/
  | meanwhile (engines : ι → Engine) (machine : Machine)

/-- What a use is answered with. -/
inductive Reply where
  | linked (result : Except SpecializationError Unit)
  | ran (result : Except SpecializationError Int32)
  | nothing
  deriving DecidableEq

namespace Scene

def setEngine (s : Scene ι) (i : ι) (e : Engine) : Scene ι :=
  { s with engines := fun j => if j = i then e else s.engines j }

def use (s : Scene ι) : Use ι → Reply × Scene ι
  | .link host i command =>
      let (result, pipeline, machine) := s.body.link host command (s.engines i).pipeline s.machine
      let after : Scene ι := { s.setEngine i { s.engines i with pipeline } with machine }
      match result with
      | .ok body => (.linked (.ok ()), { after with body })
      | .error e => (.linked (.error e), after)
  | .run host i answer iteration pack =>
      let (result, after) := s.body.run host answer iteration pack ⟨s.engines i, s.machine⟩
      (.ran result, { s.setEngine i after.engine with machine := after.machine })
  | .meanwhile engines machine => (.nothing, { s with engines, machine })

/-- One use after another. -/
def course (s : Scene ι) : List (Use ι) → List Reply × Scene ι
  | [] => ([], s)
  | u :: us =>
      let first := s.use u
      let rest := first.2.course us
      (first.1 :: rest.1, rest.2)

theorem course_concat (s : Scene ι) (us : List (Use ι)) (u : Use ι) :
    s.course (us ++ [u]) =
      ((s.course us).1 ++ [((s.course us).2.use u).1], ((s.course us).2.use u).2) := by
  induction us generalizing s with
  | nil => rfl
  | cons v us ih => simp only [List.cons_append, course, ih]

theorem setEngine_self (s : Scene ι) (i : ι) : s.setEngine i (s.engines i) = s := by
  have hengines : (fun j => if j = i then s.engines i else s.engines j) = s.engines := by
    funext j
    split
    · next hj => rw [hj]
    · rfl
  rw [setEngine, hengines]

end Scene

/-! ## What one use does -/

theorem link_of_linked {b : Body} {a : Artifact} (h : b.artifact = some a) (host : Host)
    (command : String) (p : Pipeline) (m : Machine) : b.link host command p m = (.ok b, p, m) := by
  rw [link, h]

theorem link_of_unlinked {b : Body} (h : b.artifact = none) (host : Host) (command : String)
    (p : Pipeline) (m : Machine) :
    b.link host command p m =
      ((p.compileAndLink host b.rendered command m).1.map fun a => { b with artifact := some a },
        (p.compileAndLink host b.rendered command m).2) := by
  simp only [link, h]
  rcases p.compileAndLink host b.rendered command m with ⟨e | a, p', m'⟩
  · rfl
  · rfl

namespace Scene

variable {s : Scene ι} {a : Artifact}

/-- A linked body is not linked again. -/
theorem use_link_of_linked (h : s.body.artifact = some a) (host : Host) (i : ι)
    (command : String) : s.use (.link host i command) = (.linked (.ok ()), s) := by
  have hsame := s.setEngine_self i
  simp only [use, link_of_linked h, hsame]

/-- An unlinked body tries, and has a library afterwards if it gets one. -/
theorem use_link_of_unlinked (h : s.body.artifact = none) (host : Host) (i : ι)
    (command : String) :
    (∃ e, ((s.engines i).pipeline.compileAndLink host s.body.rendered command s.machine).1 =
        .error e ∧
      (s.use (.link host i command)).1 = .linked (.error e) ∧
      (s.use (.link host i command)).2.body = s.body) ∨
    ∃ a, ((s.engines i).pipeline.compileAndLink host s.body.rendered command s.machine).1 = .ok a ∧
      (s.use (.link host i command)).1 = .linked (.ok ()) ∧
      (s.use (.link host i command)).2.body = { s.body with artifact := some a } := by
  simp only [use, link_of_unlinked h]
  cases (s.engines i).pipeline.compileAndLink host s.body.rendered command s.machine with
  | mk result rest =>
      cases result with
      | error e => exact .inl ⟨e, rfl, rfl, rfl⟩
      | ok a => exact .inr ⟨a, rfl, rfl, rfl⟩

theorem use_run_of_linked (h : s.body.artifact = some a) (host : Host) (i : ι)
    (answer : Answering) (iteration : Int64) (pack : Pack) :
    ∃ status, (s.use (.run host i answer iteration pack)).1 = .ran (.ok status) := by
  simp only [use, Body.run, h]
  exact ⟨_, rfl⟩

/-- A body that is not linked refuses to run, and nothing happens. -/
theorem use_run_of_unlinked (h : s.body.artifact = none) (host : Host) (i : ι)
    (answer : Answering) (iteration : Int64) (pack : Pack) :
    s.use (.run host i answer iteration pack) = (.ran (.error .notLinked), s) := by
  have hsame := s.setEngine_self i
  simp only [use, Body.run, h, hsame]

end Scene

/-! ## The two parts of a life -/

/-- Some link was answered with success. -/
def Succeeded (replies : List Reply) : Prop :=
  .linked (.ok ()) ∈ replies

/-- Where a body that was made as `b` stands after some uses. -/
inductive Stands (b : Body) (start : Scene ι) (uses : List (Use ι)) : Body → Prop where
  /-- No link has succeeded, and the body is as it was made. -/
  | made (h : ¬ Succeeded (start.course uses).1) : Stands b start uses b
  /-- The body has the library that the first successful link got from its pipeline. -/
  | linked {before after : List (Use ι)} {host : Host} {i : ι} {command : String} {a : Artifact}
      (hsplit : uses = before ++ .link host i command :: after)
      (hfirst : ¬ Succeeded (start.course before).1)
      (hbuilt : (((start.course before).2.engines i).pipeline.compileAndLink host b.rendered
        command (start.course before).2.machine).1 = .ok a)
      (h : Succeeded (start.course uses).1) : Stands b start uses { b with artifact := some a }

theorem succeeded_concat {replies : List Reply} {reply : Reply} :
    Succeeded (replies ++ [reply]) ↔ Succeeded replies ∨ reply = .linked (.ok ()) := by
  rw [Succeeded, List.mem_append, List.mem_singleton, Succeeded, @eq_comm _ reply]

namespace Stands

variable {b : Body} {start : Scene ι} {uses : List (Use ι)}

/-- A use that is not a link leaves the body where it stands. -/
theorem idle {u : Use ι} (h : Stands b start uses (start.course uses).2.body)
    (hreply : ((start.course uses).2.use u).1 ≠ .linked (.ok ()))
    (hbody : ((start.course uses).2.use u).2.body = (start.course uses).2.body) :
    Stands b start (uses ++ [u]) (start.course (uses ++ [u])).2.body := by
  have hiff : Succeeded (start.course (uses ++ [u])).1 ↔ Succeeded (start.course uses).1 := by
    rw [Scene.course_concat, succeeded_concat, or_iff_left hreply]
  rw [Scene.course_concat, hbody]
  generalize (start.course uses).2.body = now at h
  cases h with
  | made h => exact .made (mt hiff.1 h)
  | linked hsplit hfirst hbuilt h =>
      exact .linked (by rw [hsplit, List.append_assoc]; rfl) hfirst hbuilt (hiff.2 h)

/-- **A use keeps it.** -/
theorem use (hmade : b.artifact = none) (h : Stands b start uses (start.course uses).2.body)
    (u : Use ι) : Stands b start (uses ++ [u]) (start.course (uses ++ [u])).2.body := by
  cases u with
  | meanwhile engines machine => exact h.idle (by rintro ⟨⟩) rfl
  | run host i answer iteration pack => exact h.idle (by rintro ⟨⟩) rfl
  | link host i command =>
      generalize hbody : (start.course uses).2.body = now at h
      cases h with
      | made hnot =>
          rw [← hbody] at hmade
          rcases Scene.use_link_of_unlinked hmade host i command with
            ⟨e, -, hreply, hafter⟩ | ⟨a, hbuilt, hreply, hafter⟩
          · refine Stands.idle (by rw [hbody]; exact .made hnot) ?_ hafter
            rw [hreply]
            rintro ⟨⟩
          · rw [Scene.course_concat, hafter, hbody]
            rw [hbody] at hbuilt
            refine @Stands.linked _ _ _ _ _ uses [] _ _ _ _ rfl hnot hbuilt ?_
            rw [Scene.course_concat, succeeded_concat]
            exact .inr hreply
      | @linked before after host' i' command' a hsplit hfirst hbuilt h =>
          have hlinked : (start.course uses).2.body.artifact = some a := by rw [hbody]
          rw [Scene.course_concat, Scene.use_link_of_linked hlinked, hbody]
          refine .linked (by rw [hsplit, List.append_assoc]; rfl) hfirst hbuilt ?_
          rw [Scene.course_concat, succeeded_concat]
          exact .inl h

theorem course (hmade : b.artifact = none) (engines : ι → Engine) (machine : Machine)
    (uses : List (Use ι)) :
    Stands b ⟨b, engines, machine⟩ uses
      ((⟨b, engines, machine⟩ : Scene ι).course uses).2.body := by
  induction uses using List.reverseRecOn with
  | nil => exact .made List.not_mem_nil
  | append_singleton uses u ih => exact ih.use hmade u

theorem artifact_eq_none_iff (hmade : b.artifact = none) {now : Body}
    (h : Stands b start uses now) :
    now.artifact = none ↔ ¬ Succeeded (start.course uses).1 := by
  cases h with
  | made h => exact iff_of_true hmade h
  | linked _ _ _ h => exact iff_of_false (by rintro ⟨⟩) (not_not_intro h)

end Stands

/-- Whatever is done with a linked body, it stays as it is. -/
theorem body_course_of_linked {s : Scene ι} {a : Artifact} (h : s.body.artifact = some a)
    (uses : List (Use ι)) : (s.course uses).2.body = s.body := by
  induction uses using List.reverseRecOn with
  | nil => rfl
  | append_singleton uses u ih =>
      rw [Scene.course_concat]
      cases u with
      | meanwhile engines machine => exact ih
      | run host i answer iteration pack => exact ih
      | link host i command =>
          rw [← ih] at h
          rw [Scene.use_link_of_linked h]
          exact ih

theorem make_eq_ok {source parameters : String} {b : Body}
    (h : make source parameters = .ok b) :
    Parameters.parse parameters = .ok b.parameters ∧
      renderSource source b.parameters = .ok b.rendered ∧ b.artifact = none := by
  unfold make withParameters at h
  split at h
  · next ps hps =>
      split at h
      · next rendered hrendered =>
          cases h
          exact ⟨hps, hrendered, rfl⟩
      · cases h
  · cases h

/-- **A body is linked from the first success on.**  Take a body that could be made, and link it,
run it and leave it alone in any order, with any pipelines, commands, hosts and bodies.  Then:

* its parameters are the ones it was made with, and its text is the template rendered for them;
* it is as it was made up to the first link that succeeds, and from then on has the library that
  this link got from its pipeline;
* it refuses to run for want of a library exactly if no link has succeeded;
* once one has, every link succeeds whatever the command, and leaves the body, the engines with
  their pipelines, and the machine with its files and its numbering as they are; nor does any other
  use change the body;
* until then every link asks the pipeline to build the text anew: if that fails the body is as it
  was made, and if it succeeds the body is linked. -/
theorem linked_from_first_success {source parameters : String} {b : Body}
    (hmake : make source parameters = .ok b) (engines : ι → Engine) (machine : Machine)
    (uses : List (Use ι)) :
    let start : Scene ι := ⟨b, engines, machine⟩
    let replies := (start.course uses).1
    let s := (start.course uses).2
    (s.body.parameters = b.parameters ∧ s.body.rendered = b.rendered ∧
      Parameters.parse parameters = .ok s.body.parameters ∧
      renderSource source s.body.parameters = .ok s.body.rendered) ∧
    Stands b start uses s.body ∧
    (∀ host i answer iteration pack,
      (s.use (.run host i answer iteration pack)).1 = .ran (.error .notLinked) ↔
        ¬ Succeeded replies) ∧
    (Succeeded replies →
      (∀ host i command, s.use (.link host i command) = (.linked (.ok ()), s)) ∧
      ∀ more, (s.course more).2.body = s.body) ∧
    (¬ Succeeded replies → ∀ host i command,
      let built := ((s.engines i).pipeline.compileAndLink host b.rendered command s.machine).1
      (∃ e, built = .error e ∧ (s.use (.link host i command)).1 = .linked (.error e) ∧
        (s.use (.link host i command)).2.body = b) ∨
      ∃ a, built = .ok a ∧ (s.use (.link host i command)).1 = .linked (.ok ()) ∧
        (s.use (.link host i command)).2.body = { b with artifact := some a }) := by
  intro start replies s
  obtain ⟨hparse, hrender, hmade⟩ := make_eq_ok hmake
  have hstands : Stands b start uses s.body := .course hmade engines machine uses
  have hiff := hstands.artifact_eq_none_iff hmade
  have hlinked : Succeeded replies → ∃ a, s.body.artifact = some a := by
    intro hsucceeded
    rw [← Option.isSome_iff_exists, ← Option.ne_none_iff_isSome]
    exact fun hnone => hiff.1 hnone hsucceeded
  refine ⟨?_, hstands, ?_, ?_, ?_⟩
  · generalize s.body = now at hstands
    cases hstands with
    | made h => exact ⟨rfl, rfl, hparse, hrender⟩
    | linked hsplit hfirst hbuilt h => exact ⟨rfl, rfl, hparse, hrender⟩
  · intro host i answer iteration pack
    constructor
    · intro hreply hsucceeded
      obtain ⟨a, ha⟩ := hlinked hsucceeded
      obtain ⟨status, hstatus⟩ := Scene.use_run_of_linked ha host i answer iteration pack
      rw [hstatus] at hreply
      cases hreply
    · intro hnot
      rw [Scene.use_run_of_unlinked (hiff.2 hnot)]
  · intro hsucceeded
    obtain ⟨a, ha⟩ := hlinked hsucceeded
    exact ⟨Scene.use_link_of_linked ha, body_course_of_linked ha⟩
  · intro hnot host i command
    have hbody : s.body = b := by
      generalize s.body = now at hstands
      cases hstands with
      | made h => rfl
      | linked hsplit hfirst hbuilt h => exact absurd h hnot
    have huse := Scene.use_link_of_unlinked (hiff.2 hnot) host i command
    rwa [hbody] at huse

namespace Sample

def body : Body :=
  ⟨⟨[("N", "4")]⟩, "n=4", none⟩

/-- An engine that builds, and one whose working directories cannot be made. -/
def engines (builds : Bool) : Engine :=
  let engine := Loopsmith.Sample.start.engine
  if builds then engine else { engine with pipeline.workDir := some "\x00" }

def start : Scene Bool :=
  ⟨body, engines, Loopsmith.Sample.start.machine⟩

def uses : List (Use Bool) :=
  [.link Loopsmith.Sample.host false "ok-cc", .link Loopsmith.Sample.host true "ok-cc"]

end Sample

/-- Linked in vain with one pipeline and then with another, a body does not care that the first is
asked again. -/
theorem linked_from_first_success_second_pipeline :
    make "n=/*<DOPING N >*/" "N:4" = .ok Sample.body ∧
      (Sample.start.course Sample.uses).1 =
        [.linked (.error (.file "create" "\x00" FileError.nulInPath.message)), .linked (.ok ())] ∧
      (Sample.start.course Sample.uses).2.use (.link Loopsmith.Sample.host false "ok-cc") =
        (.linked (.ok ()), (Sample.start.course Sample.uses).2) := by
  have hmake : make "n=/*<DOPING N >*/" "N:4" = .ok Sample.body := by decide +kernel
  have hreplies : (Sample.start.course Sample.uses).1 =
      [.linked (.error (.file "create" "\x00" FileError.nulInPath.message)), .linked (.ok ())] := by
    decide +kernel
  have hsucceeded : Succeeded (Sample.start.course Sample.uses).1 := by
    rw [Succeeded, hreplies]
    exact List.mem_cons_of_mem _ List.mem_cons_self
  have h := linked_from_first_success hmake Sample.engines Loopsmith.Sample.start.machine
    Sample.uses
  exact ⟨hmake, hreplies, (h.2.2.2.1 hsucceeded).1 _ _ _⟩

end Body
end Loopsmith
