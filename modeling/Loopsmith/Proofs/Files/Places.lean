import Loopsmith.Files.Tree
import Mathlib.Data.List.Basic

/-!
# What is at each place

The tree of files as a map from places to nodes, and paths as a way to name places.

A path names the same place in every tree with the same working directory, since there are no
links: where it leads is found by walking its components (`Path.resolve`), whether or not there
is anything on the way.  What the tree decides is only if the path can be followed at all, which
takes that every place it passes is a directory (`FileTree.Passes`).  So a statement about paths
comes apart into one about places, and one about directories that are there.

For a change of the tree it is then enough to say what it does to the nodes: putting a branch at
a place replaces what is at and below that place, dropping one empties it, and all other nodes
stay (`FileTree.node?_put`, `FileTree.node?_drop`).  A file can only be put where no directory is,
so that writing and moving files changes no more than the places that are named
(`FileTree.node?_set`, `FileTree.node?_move`).
-/

namespace Loopsmith

/-! ## Branches -/

namespace Branch

/-- What is at a place below. -/
def node? (b : Branch) (p : Place) : Option Node :=
  (b.get? p).map node

@[simp] theorem node?_nil (b : Branch) : b.node? [] = some b.node := by
  cases b <;> rfl

theorem get?_cons (b : Branch) (name : String) (p : Place) :
    b.get? (name :: p) = (b.child? name).bind (·.get? p) := by
  rw [get?]
  cases b.child? name with
  | none => rfl
  | some child => rfl

theorem get?_append (b : Branch) (p q : Place) : b.get? (p ++ q) = (b.get? p).bind (·.get? q) := by
  induction p generalizing b with
  | nil => cases b <;> rfl
  | cons name p ih =>
      rw [List.cons_append, get?_cons, get?_cons]
      cases b.child? name with
      | none => rfl
      | some child => exact ih child

theorem node?_cons (b : Branch) (name : String) (p : Place) :
    b.node? (name :: p) = (b.child? name).bind (·.node? p) := by
  rw [node?, get?_cons]
  cases b.child? name with
  | none => rfl
  | some child => rfl

@[simp] theorem node?_file_cons (bytes : List UInt8) (name : String) (p : Place) :
    (file bytes).node? (name :: p) = none := by
  rw [node?_cons]
  rfl

theorem exists_of_node?_eq_directory {b : Branch} (h : b.node? [] = some .directory) :
    ∃ entries, b = directory entries := by
  cases b with
  | file bytes => cases h
  | directory entries => exact ⟨entries, rfl⟩

theorem lookup_filter_ne (entries : List (String × Branch)) (name n : String) :
    (entries.filter (·.1 != name)).lookup n = if n = name then none else entries.lookup n := by
  induction entries with
  | nil => simp
  | cons e entries ih =>
      obtain ⟨m, b⟩ := e
      rw [List.filter_cons]
      by_cases hm : m = name
      · have hkeep : (m != name) = false := by simp [hm]
        rw [hkeep, if_neg Bool.false_ne_true, ih]
        by_cases hn : n = name
        · rw [if_pos hn, if_pos hn]
        · have hnm : (n == m) = false := by simp [hm, hn]
          rw [if_neg hn, if_neg hn, List.lookup_cons, hnm]
      · have hkeep : (m != name) = true := by simp [hm]
        rw [hkeep, if_pos rfl, List.lookup_cons, List.lookup_cons]
        by_cases hn : n = m
        · simp [hn, hm]
        · have hnm : (n == m) = false := by simp [hn]
          rw [hnm, ih]

theorem lookup_setEntry (entries : List (String × Branch)) (name : String) (new : Branch)
    (n : String) :
    (setEntry entries name new).lookup n = if n = name then some new else entries.lookup n := by
  unfold setEntry
  by_cases hn : n = name
  · subst hn
    simp
  · have hnm : (n == name) = false := beq_eq_false_iff_ne.2 hn
    rw [List.lookup_cons, hnm, lookup_filter_ne, if_neg hn, if_neg hn]

/-- Putting a branch into a directory replaces what is at its place and below. -/
theorem node?_put {b : Branch} {dir : Place} (hdir : b.node? dir = some .directory)
    (name : String) (new : Branch) (q : Place) :
    (put new (dir ++ [name]) b).node? q =
      if dir ++ [name] <+: q then new.node? (q.drop (dir.length + 1)) else b.node? q := by
  induction dir generalizing b q with
  | nil =>
      obtain ⟨entries, rfl⟩ := exists_of_node?_eq_directory hdir
      change (directory (setEntry entries name new)).node? q = _
      cases q with
      | nil => simp [node]
      | cons n q =>
          rw [node?_cons, node?_cons, child?, child?, lookup_setEntry]
          by_cases hn : n = name
          · simp [hn]
          · have hpre : ¬ [] ++ [name] <+: n :: q := by simpa [eq_comm] using hn
            rw [if_neg hn, if_neg hpre]
  | cons d dir ih =>
      rw [node?_cons] at hdir
      cases b with
      | file bytes => cases hdir
      | directory entries =>
          cases hchild : entries.lookup d with
          | none =>
              rw [child?, hchild] at hdir
              cases hdir
          | some child =>
              rw [child?, hchild] at hdir
              have hput : put new (d :: dir ++ [name]) (directory entries) =
                  directory (setEntry entries d (put new (dir ++ [name]) child)) := by
                simp [put, hchild]
              rw [hput]
              cases q with
              | nil => simp [node]
              | cons n q =>
                  rw [node?_cons, node?_cons, child?, child?, lookup_setEntry]
                  by_cases hn : n = d
                  · subst hn
                    rw [if_pos rfl, hchild]
                    simpa using ih hdir q
                  · have hpre : ¬ d :: dir ++ [name] <+: n :: q := by
                      simp [Ne.symm hn]
                    rw [if_neg hn, if_neg hpre]

theorem lookup_dropped (p : Place) (name : String) (entries : List (String × Branch)) :
    ∃ entries', drop (name :: p) (directory entries) = directory entries' ∧
      ∀ n, entries'.lookup n =
        if n = name then (if p = [] then none else (entries.lookup name).map (drop p))
        else entries.lookup n := by
  cases p with
  | nil => exact ⟨_, rfl, fun n => by rw [lookup_filter_ne, if_pos rfl]⟩
  | cons c p =>
      rw [drop.eq_4 _ _ _ (by simp)]
      cases hchild : entries.lookup name with
      | none =>
          refine ⟨entries, rfl, fun n => ?_⟩
          by_cases hn : n = name
          · simp [hn, hchild]
          · rw [if_neg hn]
      | some child =>
          refine ⟨_, rfl, fun n => ?_⟩
          rw [lookup_setEntry]
          rfl

/-- Dropping a place empties it and what is below. -/
theorem node?_drop {p : Place} (hp : p ≠ []) (b : Branch) (q : Place) :
    (drop p b).node? q = if p <+: q then none else b.node? q := by
  induction p generalizing b q with
  | nil => exact absurd rfl hp
  | cons name p ih =>
      cases b with
      | file bytes =>
          cases q with
          | nil => simp [drop]
          | cons n q => simp [drop]
      | directory entries =>
          obtain ⟨entries', hdrop, hlookup⟩ := lookup_dropped p name entries
          rw [hdrop]
          cases q with
          | nil => simp [node]
          | cons n q =>
              rw [node?_cons, node?_cons, child?, child?, hlookup]
              by_cases hn : n = name
              · subst hn
                by_cases hp : p = []
                · simp [hp]
                · rw [if_pos rfl, if_neg hp]
                  cases entries.lookup n with
                  | none => simp
                  | some child => simpa using ih hp child q
              · have hpre : ¬ name :: p <+: n :: q := by simp [Ne.symm hn]
                rw [if_neg hn, if_neg hpre]

end Branch

/-! ## Trees -/

namespace FileTree

theorem node?_eq (t : FileTree) (p : Place) : t.node? p = t.top.node? p :=
  rfl

@[simp] theorem node?_nil (t : FileTree) : t.node? [] = some .directory :=
  rfl

theorem cwd_withTop (t : FileTree) (b : Branch) : (t.withTop b).cwd = t.cwd := by
  cases b with
  | file bytes => rfl
  | directory entries => rfl

@[simp] theorem cwd_put (t : FileTree) (p : Place) (b : Branch) : (t.put p b).cwd = t.cwd :=
  t.cwd_withTop _

@[simp] theorem cwd_set (t : FileTree) (p : Place) (n : Node) : (t.set p n).cwd = t.cwd :=
  t.cwd_withTop _

@[simp] theorem cwd_drop (t : FileTree) (p : Place) : (t.drop p).cwd = t.cwd :=
  t.cwd_withTop _

theorem top_withTop (t : FileTree) {b : Branch} (h : b.node? [] = some .directory) :
    (t.withTop b).top = b := by
  obtain ⟨entries, rfl⟩ := Branch.exists_of_node?_eq_directory h
  rfl

/-- Whatever leads to something is a directory. -/
theorem node?_of_isPrefix {t : FileTree} {p q : Place} {n : Node} (hq : t.node? q = some n)
    (hpq : p <+: q) (hne : p ≠ q) : t.node? p = some .directory := by
  obtain ⟨r, rfl⟩ := hpq
  have hr : r ≠ [] := by simpa using hne
  obtain ⟨name, r, rfl⟩ := List.exists_cons_of_ne_nil hr
  rw [node?, Branch.get?_append] at hq
  cases hp : t.top.get? p with
  | none =>
      rw [hp] at hq
      cases hq
  | some b =>
      rw [hp] at hq
      cases b with
      | file bytes =>
          rw [Option.bind_some, Branch.get?_cons] at hq
          cases hq
      | directory entries =>
          rw [node?, hp]
          rfl

theorem node?_put {t : FileTree} {dir : Place} (hdir : t.node? dir = some .directory)
    (name : String) (b : Branch) (q : Place) :
    (t.put (dir ++ [name]) b).node? q =
      if dir ++ [name] <+: q then b.node? (q.drop (dir.length + 1)) else t.node? q := by
  have hput := Branch.node?_put (b := t.top) hdir name b
  have htop : (t.put (dir ++ [name]) b).top = b.put (dir ++ [name]) t.top := by
    refine t.top_withTop ?_
    rw [hput []]
    simp [Branch.node, top]
  rw [node?_eq, htop, hput q]
  rfl

theorem node?_drop (t : FileTree) {p : Place} (hp : p ≠ []) (q : Place) :
    (t.drop p).node? q = if p <+: q then none else t.node? q := by
  have hdrop := Branch.node?_drop hp t.top
  have htop : (t.drop p).top = Branch.drop p t.top := by
    refine t.top_withTop ?_
    rw [hdrop []]
    simp [hp, Branch.node, top]
  rw [node?_eq, htop, hdrop q]
  rfl

/-- A place in a directory that is not a directory itself: there a file can be. -/
def Takes (t : FileTree) (p : Place) : Prop :=
  (∃ dir name, p = dir ++ [name] ∧ t.node? dir = some .directory) ∧ t.node? p ≠ some .directory

theorem Takes.ne_nil {t : FileTree} {p : Place} (h : t.Takes p) : p ≠ [] := by
  obtain ⟨⟨dir, name, rfl, -⟩, -⟩ := h
  simp

theorem Takes.node?_below {t : FileTree} {p q : Place} (h : t.Takes p) (hpq : p <+: q)
    (hne : p ≠ q) : t.node? q = none := by
  cases hq : t.node? q with
  | none => rfl
  | some n => exact absurd (node?_of_isPrefix hq hpq hne) h.2

/-- Setting a place changes that place alone. -/
theorem node?_set {t : FileTree} {p : Place} (h : t.Takes p) (n : Node) (q : Place) :
    (t.set p n).node? q = if q = p then some n else t.node? q := by
  obtain ⟨dir, name, rfl, hdir⟩ := h.1
  rw [set, node?_put hdir]
  by_cases hpq : dir ++ [name] <+: q
  · rw [if_pos hpq]
    obtain ⟨r, rfl⟩ := hpq
    have hdrop : (dir ++ [name] ++ r).drop (dir.length + 1) = r := by
      have hlen : dir.length + 1 = (dir ++ [name]).length := by simp
      rw [hlen, List.drop_left]
    rw [hdrop]
    cases r with
    | nil => cases n <;> simp [Branch.ofNode, Branch.node]
    | cons c r =>
        have hbelow : t.node? (dir ++ [name] ++ c :: r) = none :=
          h.node?_below (List.prefix_append _ _) (by simp)
        rw [if_neg (by simp), hbelow]
        cases n <;> rfl
  · have hne : q ≠ dir ++ [name] := by
      rintro rfl
      exact hpq (List.prefix_refl _)
    rw [if_neg hpq, if_neg hne]

/-- Moving a file changes the place that it leaves and the one that it goes to. -/
theorem node?_move {t : FileTree} {p d : Place} {bytes : List UInt8}
    (hp : t.node? p = some (.file bytes)) (hd : t.Takes d) (q : Place) :
    ((t.drop p).put d (.file bytes)).node? q =
      if q = d then some (.file bytes) else if q = p then none else t.node? q := by
  have hne : p ≠ [] := by
    rintro rfl
    cases hp
  have hbelow : ∀ r, p <+: r → r ≠ p → t.node? r = none := by
    intro r hpr hrp
    cases hr : t.node? r with
    | none => rfl
    | some n =>
        rw [node?_of_isPrefix hr hpr (Ne.symm hrp)] at hp
        cases hp
  have hdrop : ∀ r, (t.drop p).node? r = if r = p then none else t.node? r := by
    intro r
    rw [node?_drop t hne]
    by_cases hpr : p <+: r
    · by_cases hrp : r = p
      · rw [if_pos hpr, if_pos hrp]
      · rw [if_pos hpr, if_neg hrp, hbelow r hpr hrp]
    · have hrp : r ≠ p := by
        rintro rfl
        exact hpr (List.prefix_refl _)
      rw [if_neg hpr, if_neg hrp]
  have htakes : (t.drop p).Takes d := by
    obtain ⟨⟨dir, name, rfl, hdir⟩, hnot⟩ := hd
    refine ⟨⟨dir, name, rfl, ?_⟩, ?_⟩
    · have hdp : dir ≠ p := by
        rintro rfl
        rw [hp] at hdir
        cases hdir
      rw [hdrop, if_neg hdp, hdir]
    · rw [hdrop]
      split
      · simp
      · exact hnot
  have hset := node?_set htakes (.file bytes) q
  rw [set] at hset
  change ((t.drop p).put d (.ofNode (.file bytes))).node? q = _
  rw [hset, hdrop]

end FileTree

/-! ## Paths -/

namespace Path

/-- One component further. -/
def walk (p : Place) (component : String) : Place :=
  if isStay component then p else if component == ".." then p.dropLast else p ++ [component]

/-- The components of a path, from the root. -/
def route (cwd : Place) (path : String) : List String :=
  (if isAbsolute path then [] else cwd) ++ segments path

/-- The place that a path leads to from a working directory. -/
def resolve (cwd : Place) (path : String) : Place :=
  (route cwd path).foldl walk []

/-- An absolute path leads to the same place from everywhere. -/
theorem resolve_of_isAbsolute {path : String} (h : isAbsolute path = true) (cwd cwd' : Place) :
    resolve cwd path = resolve cwd' path := by
  rw [resolve, resolve, route, route, if_pos h, if_pos h]

/-- The places that some components lead through, starting at `p`; not where they end. -/
def passed (p : Place) : List String → List Place
  | [] => []
  | c :: cs => p :: passed (walk p c) cs

theorem passed_append (p : Place) (cs ds : List String) :
    passed p (cs ++ ds) = passed p cs ++ passed (cs.foldl walk p) ds := by
  induction cs generalizing p with
  | nil => rfl
  | cons c cs ih => simp [passed, ih]

/-- Components that never go up only lead further. -/
theorem isPrefix_foldl_walk {cs : List String} (hup : ".." ∉ cs) (p : Place) :
    p <+: cs.foldl walk p := by
  induction cs generalizing p with
  | nil => exact List.prefix_rfl
  | cons c cs ih =>
      obtain ⟨hc, hcs⟩ := not_or.1 (mt List.mem_cons.2 hup)
      have hwalk : p <+: walk p c := by
        have hc' : ¬ (c == "..") = true := by simpa using Ne.symm hc
        rw [walk, if_neg hc']
        split
        · exact List.prefix_rfl
        · exact List.prefix_append p [c]
      exact hwalk.trans (ih hcs (walk p c))

/-- So they end below every place that they lead through. -/
theorem isPrefix_of_mem_passed {cs : List String} (hup : ".." ∉ cs) {p q : Place}
    (hq : q ∈ passed p cs) : q <+: cs.foldl walk p := by
  induction cs generalizing p with
  | nil => cases hq
  | cons c cs ih =>
      rcases List.mem_cons.1 hq with rfl | hq
      · exact isPrefix_foldl_walk hup q
      · exact ih (mt (List.mem_cons_of_mem c) hup) hq

/-- The places that a path leads through, and where it ends. -/
def way (cwd : Place) (path : String) : List Place :=
  passed [] (route cwd path) ++ [resolve cwd path]

/-- The path is short enough, and its components are. -/
structure Spelled (cwd : Place) (path : String) : Prop where
  ne_empty : path ≠ ""
  no_nul : '\x00' ∉ path.toList
  short : path.utf8ByteSize ≤ FileTree.longestPath
  names : ∀ c ∈ route cwd path, c.utf8ByteSize ≤ FileTree.longestName

end Path

namespace FileTree

/-- Every place on the way of a path is a directory. -/
def Passes (t : FileTree) (path : String) : Prop :=
  Path.Spelled t.cwd path ∧
    ∀ q ∈ Path.passed [] (Path.route t.cwd path), t.node? q = some .directory

/-- A spot is what following names from the root comes to. -/
inductive Spot.Sound (t : FileTree) : Spot → Prop where
  | top : Sound t ⟨some t.top, []⟩
  | child {dir : Branch} {trail : List (String × Branch)} (name : String)
      (h : Sound t ⟨some dir, trail⟩) (hdir : dir.node = .directory) :
      Sound t ⟨dir.child? name, (name, dir) :: trail⟩

namespace Spot

theorem place_cons (here : Option Branch) (name : String) (dir : Branch)
    (trail : List (String × Branch)) (here' : Option Branch) :
    place ⟨here, (name, dir) :: trail⟩ = place ⟨here', trail⟩ ++ [name] := by
  simp [place]

theorem Sound.here_eq {t : FileTree} {s : Spot} (h : Sound t s) : s.here = t.top.get? s.place := by
  induction h with
  | top => rfl
  | @child dir trail name _ _ ih =>
      rw [place_cons _ _ _ _ (some dir), Branch.get?_append, ← ih, Option.bind_some,
        Branch.get?_cons]
      cases dir.child? name with
      | none => rfl
      | some b => cases b <;> rfl

theorem Sound.node?_eq {t : FileTree} {s : Spot} (h : Sound t s) : s.node? = t.node? s.place := by
  rw [Spot.node?, h.here_eq]
  rfl

/-- A spot that is not a directory is one where a file can be. -/
theorem Sound.takes {t : FileTree} {s : Spot} (h : Sound t s) (hne : s.node? ≠ some .directory) :
    t.Takes s.place := by
  have hnode := h.node?_eq
  cases h with
  | top => exact absurd rfl hne
  | @child dir trail name h hdir =>
      refine ⟨⟨place ⟨some dir, trail⟩, name, place_cons _ _ _ _ _, ?_⟩, ?_⟩
      · rw [← h.node?_eq, Spot.node?, Option.map_some, hdir]
      · rwa [← hnode]

theorem Sound.up {t : FileTree} {here : Option Branch} {e : String × Branch}
    {trail : List (String × Branch)} (h : Sound t ⟨here, e :: trail⟩) :
    Sound t ⟨some e.2, trail⟩ := by
  generalize hs : (⟨here, e :: trail⟩ : Spot) = s at h
  cases h with
  | top => cases hs
  | child name h hdir =>
      cases hs
      exact h

/-- One component further from a directory. -/
theorem Sound.step {t : FileTree} {s : Spot} (h : Sound t s)
    (hdir : t.node? s.place = some .directory) {c : String} (hc : c.utf8ByteSize ≤ longestName) :
    ∃ s', s.step c = .ok s' ∧ Sound t s' ∧ s'.place = Path.walk s.place c := by
  rw [← h.node?_eq, Spot.node?] at hdir
  obtain ⟨here, trail⟩ := s
  cases here with
  | none => cases hdir
  | some b =>
      cases b with
      | file bytes => cases hdir
      | directory entries =>
          rw [Spot.step, Path.walk]
          dsimp only
          by_cases hstay : Path.isStay c = true
          · rw [if_pos hstay, if_pos hstay]
            exact ⟨_, rfl, h, rfl⟩
          · rw [if_neg hstay, if_neg hstay]
            by_cases hup : (c == "..") = true
            · rw [if_pos hup, if_pos hup]
              cases trail with
              | nil => exact ⟨_, rfl, h, rfl⟩
              | cons e trail =>
                  refine ⟨_, rfl, h.up, ?_⟩
                  rw [place_cons _ _ _ _ (some e.2), List.dropLast_concat]
            · rw [if_neg hup, if_neg hup, if_neg (by omega)]
              exact ⟨_, rfl, .child c h rfl, place_cons _ _ _ _ _⟩

theorem directory_of_step {s s' : Spot} {c : String} (h : s.step c = .ok s') :
    s.node? = some .directory ∧ c.utf8ByteSize ≤ longestName := by
  obtain ⟨here, trail⟩ := s
  cases here with
  | none => cases h
  | some b =>
      cases b with
      | file bytes => cases h
      | directory entries =>
          refine ⟨rfl, ?_⟩
          rw [Spot.step] at h
          dsimp only at h
          by_cases hstay : Path.isStay c = true
          · rw [Path.isStay, Bool.or_eq_true, beq_iff_eq, beq_iff_eq] at hstay
            rcases hstay with rfl | rfl <;> decide
          · rw [if_neg hstay] at h
            by_cases hup : (c == "..") = true
            · rw [beq_iff_eq.1 hup]
              decide
            · rw [if_neg hup] at h
              split at h
              · cases h
              · omega

theorem Sound.foldlM_step {t : FileTree} {s : Spot} (h : Sound t s) {cs : List String}
    (hnames : ∀ c ∈ cs, c.utf8ByteSize ≤ longestName)
    (hpassed : ∀ q ∈ Path.passed s.place cs, t.node? q = some .directory) :
    ∃ s', cs.foldlM Spot.step s = .ok s' ∧ Sound t s' ∧ s'.place = cs.foldl Path.walk s.place := by
  induction cs generalizing s with
  | nil => exact ⟨s, rfl, h, rfl⟩
  | cons c cs ih =>
      obtain ⟨hc, hcs⟩ := List.forall_mem_cons.1 hnames
      obtain ⟨hdir, hrest⟩ := List.forall_mem_cons.1 hpassed
      obtain ⟨s₁, hstep, hs₁, hplace⟩ := h.step hdir hc
      rw [← hplace] at hrest
      obtain ⟨s', hfold, hs', hend⟩ := ih hs₁ hcs hrest
      refine ⟨s', ?_, hs', ?_⟩
      · rw [List.foldlM_cons, hstep]
        exact hfold
      · rw [hend, hplace, List.foldl_cons]

theorem Sound.of_foldlM_step {t : FileTree} {s s' : Spot} (h : Sound t s) {cs : List String}
    (hfold : cs.foldlM Spot.step s = .ok s') :
    (∀ c ∈ cs, c.utf8ByteSize ≤ longestName) ∧
      ∀ q ∈ Path.passed s.place cs, t.node? q = some .directory := by
  induction cs generalizing s with
  | nil => exact ⟨by simp, by simp [Path.passed]⟩
  | cons c cs ih =>
      rw [List.foldlM_cons] at hfold
      cases hstep : s.step c with
      | error e =>
          rw [hstep] at hfold
          cases hfold
      | ok s₁ =>
          obtain ⟨hdir, hc⟩ := directory_of_step hstep
          rw [h.node?_eq] at hdir
          obtain ⟨s₂, hstep₂, hs₂, hplace⟩ := h.step hdir hc
          rw [hstep] at hstep₂ hfold
          cases hstep₂
          obtain ⟨hcs, hrest⟩ := ih hs₂ hfold
          rw [hplace] at hrest
          exact ⟨List.forall_mem_cons.2 ⟨hc, hcs⟩, List.forall_mem_cons.2 ⟨hdir, hrest⟩⟩

end Spot

theorem follow_eq_of_spelled {t : FileTree} {path : String} (h : Path.Spelled t.cwd path) :
    t.follow path = (Path.route t.cwd path).foldlM Spot.step ⟨some t.top, []⟩ := by
  have hempty : (path == "") = false := by simpa using h.ne_empty
  have hnul : path.toList.contains '\x00' = false := by simpa using h.no_nul
  have hshort : ¬ path.utf8ByteSize > longestPath := by
    have := h.short
    omega
  rw [follow, hempty, if_neg Bool.false_ne_true, hnul, if_neg Bool.false_ne_true, if_neg hshort]
  rfl

/-- A path can be followed if all that it passes are directories. -/
theorem Passes.follow {t : FileTree} {path : String} (h : t.Passes path) :
    ∃ s, t.follow path = .ok s ∧ s.Sound t ∧ s.place = Path.resolve t.cwd path := by
  rw [follow_eq_of_spelled h.1]
  exact Spot.Sound.top.foldlM_step h.1.names h.2

/-- What follows from having followed a path. -/
theorem follow_sound {t : FileTree} {path : String} {s : Spot} (h : t.follow path = .ok s) :
    t.Passes path ∧ s.Sound t ∧ s.place = Path.resolve t.cwd path := by
  have hpasses : t.Passes path := by
    rw [FileTree.follow] at h
    split at h
    · cases h
    · next hempty =>
        split at h
        · cases h
        · next hnul =>
            split at h
            · cases h
            · next hshort =>
                obtain ⟨hnames, hpassed⟩ := Spot.Sound.top.of_foldlM_step h
                refine ⟨⟨?_, ?_, ?_, hnames⟩, hpassed⟩
                · simpa using hempty
                · simpa using hnul
                · omega
  obtain ⟨s', hs', hsound, hplace⟩ := hpasses.follow
  rw [h] at hs'
  cases hs'
  exact ⟨hpasses, hsound, hplace⟩

theorem find_eq_ok_iff {t : FileTree} {path : String} {n : Node} :
    t.find path = .ok n ↔ t.Passes path ∧ t.node? (Path.resolve t.cwd path) = some n := by
  constructor
  · intro h
    rw [find] at h
    cases hf : t.follow path with
    | error e =>
        rw [hf] at h
        cases h
    | ok s =>
        obtain ⟨hpasses, hsound, hplace⟩ := follow_sound hf
        refine ⟨hpasses, ?_⟩
        rw [hf] at h
        dsimp only [bind, Except.bind] at h
        rw [hsound.node?_eq, hplace] at h
        cases hn : t.node? (Path.resolve t.cwd path) with
        | none =>
            rw [hn] at h
            cases h
        | some n' =>
            rw [hn] at h
            cases h
            rfl
  · rintro ⟨hpasses, hn⟩
    obtain ⟨s, hf, hsound, hplace⟩ := hpasses.follow
    rw [find, hf]
    dsimp only [bind, Except.bind]
    rw [hsound.node?_eq, hplace, hn]

theorem isDirectory_iff {t : FileTree} {path : String} :
    t.isDirectory path = true ↔
      t.Passes path ∧ t.node? (Path.resolve t.cwd path) = some .directory := by
  rw [← find_eq_ok_iff, isDirectory]
  split
  · next h => simp [h]
  · next h => simpa using h

theorem isDirectory_iff_way {t : FileTree} {path : String} :
    t.isDirectory path = true ↔
      Path.Spelled t.cwd path ∧ ∀ q ∈ Path.way t.cwd path, t.node? q = some .directory := by
  rw [isDirectory_iff, Passes, Path.way, and_assoc]
  simp only [List.mem_append, List.mem_singleton]
  constructor
  · rintro ⟨hspelled, hpassed, hend⟩
    refine ⟨hspelled, ?_⟩
    rintro q (hq | rfl)
    · exact hpassed q hq
    · exact hend
  · rintro ⟨hspelled, hway⟩
    exact ⟨hspelled, fun q hq => hway q (.inl hq), hway _ (.inr rfl)⟩

theorem hasPath_iff {t : FileTree} {path : String} :
    t.hasPath path = true ↔
      t.Passes path ∧ ∃ n, t.node? (Path.resolve t.cwd path) = some n := by
  rw [hasPath]
  cases h : t.find path with
  | error e =>
      simp only [Except.toBool, Bool.false_eq_true, false_iff, not_and, not_exists]
      intro hpasses n hn
      rw [find_eq_ok_iff.2 ⟨hpasses, hn⟩] at h
      cases h
  | ok n =>
      obtain ⟨hpasses, hn⟩ := find_eq_ok_iff.1 h
      simp [Except.toBool, hpasses, hn]

theorem readFile_eq_ok_iff {t : FileTree} {path : String} {bytes : List UInt8} :
    t.readFile path = .ok bytes ↔
      t.Passes path ∧ t.node? (Path.resolve t.cwd path) = some (.file bytes) := by
  rw [← find_eq_ok_iff, readFile]
  cases t.find path with
  | error e => exact ⟨nofun, nofun⟩
  | ok n =>
      cases n with
      | directory => exact ⟨nofun, nofun⟩
      | file bytes' =>
          change Except.ok bytes' = .ok bytes ↔ _
          simp

end FileTree
end Loopsmith
