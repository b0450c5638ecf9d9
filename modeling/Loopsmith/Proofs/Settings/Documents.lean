import Loopsmith.Proofs.Toml.Documents
import Loopsmith.Settings.Document
import Mathlib.Data.List.Nodup
import Mathlib.Data.List.Perm.Basic

/-!
# Settings in a document, in any order

Each line of a document sets one thing, and no two lines set the same one.  So it does not matter in
which order they stand: a document whose lines were put in another order spells the same settings
(`parse?_document_of_perm`).

The reader goes through the assignments and changes the field that each of them names.  It is taken
apart here: what an assignment sets (`Setting.of?`) does not depend on what was set before, and
settings with different keys can be made in either order (`set_comm`).
-/

namespace Loopsmith
namespace Settings

open Document (assign empty)

namespace Setting

def key : Setting → String
  | verbose _ => "verbose"
  | log _ => "log"
  | logFile _ => "log_file"
  | saveFiles _ => "save_files"
  | benchmark _ => "benchmark"
  | threshold _ => "threshold"
  | workDir _ => "work_dir"
  | cache _ => "cache"
  | cacheDir _ => "cache_dir"

theorem key_of_of? {e : String × Toml.Scalar} {s : Setting} (h : of? e = some s) :
    s.key = e.1 := by
  unfold of? at h
  split at h
  · split at h
    · cases h
      rfl
    · cases h
  all_goals
    cases h
    try rfl

end Setting

namespace Document

theorem set_comm (d : Document) {s s' : Setting} (h : s.key ≠ s'.key) :
    (d.set s).set s' = (d.set s').set s := by
  cases s <;> cases s' <;> first | rfl | exact absurd rfl h

/-- Settings with different keys can be made in any order. -/
theorem foldl_set_of_perm {settings settings' : List Setting} (hperm : settings.Perm settings')
    (hkeys : (settings.map Setting.key).Nodup) (d : Document) :
    settings.foldl set d = settings'.foldl set d := by
  refine hperm.foldl_eq' (fun s hs s' hs' d => ?_) d
  by_cases heq : s = s'
  · rw [heq]
  · exact set_comm d fun hkey => heq (List.inj_on_of_nodup_map hkeys hs hs' hkey)

/-- The assignments are taken in one by one. -/
theorem foldlM_assign (entries : List (String × Toml.Scalar)) (d : Document) :
    entries.foldlM assign d = (entries.mapM Setting.of?).map (·.foldl set d) := by
  induction entries generalizing d with
  | nil => rfl
  | cons e entries ih =>
      rw [List.foldlM_cons, List.mapM_cons, assign]
      cases Setting.of? e with
      | none => rfl
      | some s =>
          simp only [Option.map_some, Option.bind_eq_bind, Option.bind_some, ih]
          cases entries.mapM Setting.of? with
          | none => rfl
          | some settings => rfl

/-! ## Lines -/

/-- What a line sets, if the document takes it. -/
def setting? (line : String × Toml.Value) : Option Setting :=
  (Toml.assignment? line).bind Setting.of?

theorem key_of_setting? {line : String × Toml.Value} {s : Setting} (h : setting? line = some s) :
    s.key = line.1 := by
  obtain ⟨e, he, hs⟩ := Option.bind_eq_some_iff.1 h
  exact (Setting.key_of_of? hs).trans (Toml.fst_of_assignment? he)

theorem mapM_setting? (lines : List (String × Toml.Value)) :
    lines.mapM setting? = (lines.mapM Toml.assignment?).bind (·.mapM Setting.of?) := by
  induction lines with
  | nil => rfl
  | cons line lines ih =>
      rw [List.mapM_cons, List.mapM_cons, ih, setting?]
      cases Toml.assignment? line with
      | none => rfl
      | some e =>
          cases lines.mapM Toml.assignment? with
          | none =>
              simp only [Option.bind_eq_bind, Option.bind_some, Option.bind_none]
              cases Setting.of? e with
              | none => rfl
              | some s => rfl
          | some entries =>
              simp only [Option.bind_eq_bind, Option.bind_some, pure, List.mapM_cons]

/-- What a document spells: each of its lines sets one thing. -/
theorem parse?_document {lines : List (String × Toml.Value)}
    (hkeys : ∀ line ∈ lines, Toml.IsBareKey line.1) (hnodup : (lines.map Prod.fst).Nodup) :
    parse? (Toml.document lines) = (lines.mapM setting?).map (·.foldl set empty) := by
  rw [parse?, Toml.parse?_document hkeys hnodup, mapM_setting?]
  cases lines.mapM Toml.assignment? with
  | none => rfl
  | some entries => exact foldlM_assign entries empty

end Document

/-! ## The order of the lines -/

theorem exists_mapM_of_perm {α β : Type} {f : α → Option β} {xs xs' : List α}
    (hperm : xs.Perm xs') {ys : List β} (h : xs.mapM f = some ys) :
    ∃ ys', xs'.mapM f = some ys' ∧ ys.Perm ys' := by
  induction hperm generalizing ys with
  | nil => exact ⟨ys, h, .refl ys⟩
  | cons x hperm ih =>
      rw [List.mapM_cons] at h ⊢
      obtain ⟨y, hy, h⟩ := Option.bind_eq_some_iff.1 h
      obtain ⟨zs, hzs, h⟩ := Option.bind_eq_some_iff.1 h
      obtain ⟨zs', hzs', hzperm⟩ := ih hzs
      cases h
      refine ⟨y :: zs', ?_, hzperm.cons y⟩
      rw [hy, hzs']
      rfl
  | swap x x' xs =>
      rw [List.mapM_cons, List.mapM_cons] at h ⊢
      obtain ⟨y, hy, h⟩ := Option.bind_eq_some_iff.1 h
      obtain ⟨zs, hzs, h⟩ := Option.bind_eq_some_iff.1 h
      obtain ⟨y', hy', hzs⟩ := Option.bind_eq_some_iff.1 hzs
      obtain ⟨zs', hzs', hzs⟩ := Option.bind_eq_some_iff.1 hzs
      cases hzs
      cases h
      refine ⟨y' :: y :: zs', ?_, .swap ..⟩
      rw [hy, hy', hzs']
      rfl
  | trans _ _ ih ih' =>
      obtain ⟨zs, hzs, hperm⟩ := ih h
      obtain ⟨zs', hzs', hperm'⟩ := ih' hzs
      exact ⟨zs', hzs', hperm.trans hperm'⟩

/-- **The order of the lines does not matter.** -/
theorem Document.parse?_document_of_perm {lines lines' : List (String × Toml.Value)}
    (hperm : lines.Perm lines') (hkeys : ∀ line ∈ lines, Toml.IsBareKey line.1)
    (hnodup : (lines.map Prod.fst).Nodup) :
    parse? (Toml.document lines) = parse? (Toml.document lines') := by
  have hkeys' : ∀ line ∈ lines', Toml.IsBareKey line.1 := fun line hline =>
    hkeys line (hperm.mem_iff.2 hline)
  have hnodup' : (lines'.map Prod.fst).Nodup := (hperm.map Prod.fst).nodup_iff.1 hnodup
  rw [parse?_document hkeys hnodup, parse?_document hkeys' hnodup']
  cases h : lines.mapM setting? with
  | some settings =>
      obtain ⟨settings', h', hsettings⟩ := exists_mapM_of_perm hperm h
      rw [h', Option.map_some, Option.map_some, foldl_set_of_perm hsettings (by
        rw [Toml.map_eq_map_of_mapM key_of_setting? h]
        exact hnodup)]
  | none =>
      cases h' : lines'.mapM setting? with
      | none => rfl
      | some settings' =>
          obtain ⟨settings, hsettings, -⟩ := exists_mapM_of_perm hperm.symm h'
          rw [h] at hsettings
          cases hsettings

end Settings
end Loopsmith
