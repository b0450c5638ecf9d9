import Loopsmith.Proofs.Files.Operations
import Mathlib.Data.String.Basic

/-!
# Making directories

`makeDirectories` tries the whole path first and works its way up until something is there, and
then down again.  Its recursion is over the text of paths, so what it does to the tree takes some
reading of paths: the directory above a path (`Path.up`) is spelled anew from the components, and
slashes at the end of a path (`Path.bare`) are left out when the directory is made.

Three things come of it.  Directories are made on the way of the path and nowhere else
(`node?_makeDirectories`).  Where the path is a directory in the end there is nothing left to do the
next time (`makeDirectories_of_isDirectory`).  And a failure is final: it leaves a tree in which
trying again fails too, and changes nothing (`makeDirectories_again`).

In front of this stands the other direction of what is said about the single operations: they
succeed if the way is there and nothing stands in it.
-/

namespace Loopsmith

namespace FileTree

/-! ## What an operation takes -/

section

variable {t : FileTree} {path : String}

theorem Passes.locateNew (h : t.Passes path) (hlast : path.toList.getLast? ≠ some '/')
    (hnot : t.node? (Path.resolve t.cwd path) ≠ some .directory) :
    ∃ s, t.locateNew path = .ok s ∧ s.place = Path.resolve t.cwd path := by
  obtain ⟨s, hs, hsound, hplace⟩ := h.follow
  have hpath : (if path == "" then path else path) = path := ite_self _
  refine ⟨s, ?_, hplace⟩
  rw [FileTree.locateNew, stripSlashes_of_getLast? hlast, hpath, hs]
  dsimp only [bind, Except.bind]
  rw [← hplace, ← hsound.node?_eq] at hnot
  split
  · next hdir => exact absurd hdir hnot
  · rw [if_pos (beq_self_eq_true path)]

/-- A file can be written where there is no directory. -/
theorem Passes.writeFile (h : t.Passes path) (hlast : path.toList.getLast? ≠ some '/')
    (hnot : t.node? (Path.resolve t.cwd path) ≠ some .directory) (bytes : List UInt8) :
    t.writeFile path bytes = .ok (t.set (Path.resolve t.cwd path) (.file bytes)) := by
  obtain ⟨s, hlocate, hplace⟩ := h.locateNew hlast hnot
  rw [FileTree.writeFile, hlocate, ← hplace]
  rfl

/-- A file can be copied to where there is no directory. -/
theorem Passes.exists_copy (h : t.Passes path) (hlast : path.toList.getLast? ≠ some '/')
    (hnot : t.node? (Path.resolve t.cwd path) ≠ some .directory) {source : String}
    {bytes : List UInt8} (hread : t.readFile source = .ok bytes) :
    ∃ t', t.copy source path = .ok t' := by
  obtain ⟨hpasses, hfile⟩ := readFile_eq_ok_iff.1 hread
  obtain ⟨s, hs, hsound, hplace⟩ := hpasses.follow
  obtain ⟨d, hlocate, -⟩ := h.locateNew hlast hnot
  rw [← hplace, ← hsound.node?_eq] at hfile
  rw [FileTree.copy, hs]
  dsimp only [bind, Except.bind]
  rw [hfile, hlocate]
  exact ⟨_, rfl⟩

/-- A file can be moved to where there is no directory. -/
theorem Passes.exists_rename (h : t.Passes path)
    (hnot : t.node? (Path.resolve t.cwd path) ≠ some .directory) {source : String}
    {bytes : List UInt8} (hread : t.readFile source = .ok bytes) :
    ∃ t', t.rename source path = .ok t' := by
  obtain ⟨hpasses, hfile⟩ := readFile_eq_ok_iff.1 hread
  obtain ⟨s, hs, hsound, hplace⟩ := hpasses.follow
  obtain ⟨d, hd, hsound', hplace'⟩ := h.follow
  rw [← hplace, ← hsound.node?_eq, Spot.node?] at hfile
  rw [← hplace', ← hsound'.node?_eq] at hnot
  obtain ⟨b, hhere, hb⟩ := Option.map_eq_some_iff.1 hfile
  rw [FileTree.rename, hs, hd]
  dsimp only [bind, Except.bind]
  rw [hhere]
  cases b with
  | directory entries => cases hb
  | file content =>
      cases hn : d.node? with
      | none => exact ⟨_, rfl⟩
      | some n =>
          cases n with
          | directory => exact absurd hn hnot
          | file old => exact ⟨_, rfl⟩

theorem Passes.remove (h : t.Passes path) {n : Node}
    (hn : t.node? (Path.resolve t.cwd path) = some n) :
    t.remove path = .ok (t.drop (Path.resolve t.cwd path)) := by
  obtain ⟨s, hs, hsound, hplace⟩ := h.follow
  rw [FileTree.remove, hs]
  dsimp only [bind, Except.bind]
  rw [← hplace, ← hsound.node?_eq, Spot.node?] at hn
  cases hhere : s.here with
  | none =>
      rw [hhere] at hn
      cases hn
  | some b => rw [← hplace]

theorem Passes.makeDirectory (h : t.Passes path) (hlast : path.toList.getLast? ≠ some '/')
    (hnone : t.node? (Path.resolve t.cwd path) = none) :
    t.makeDirectory path = .ok (t.set (Path.resolve t.cwd path) .directory) := by
  obtain ⟨s, hs, hsound, hplace⟩ := h.follow
  have hpath : (if path == "" then path else path) = path := ite_self _
  rw [FileTree.makeDirectory, stripSlashes_of_getLast? hlast, hpath, hs]
  dsimp only [bind, Except.bind]
  rw [← hplace, ← hsound.node?_eq, Spot.node?, Option.map_eq_none_iff] at hnone
  rw [hnone, ← hplace]

end

end FileTree

namespace Path

/-! ## Components -/

theorem foldl_walk_filter (p : Place) (cs : List String) :
    (cs.filter (!isStay ·)).foldl walk p = cs.foldl walk p := by
  induction cs generalizing p with
  | nil => rfl
  | cons c cs ih =>
      by_cases hc : isStay c = true
      · have hwalk : walk p c = p := by rw [walk, if_pos hc]
        rw [List.filter_cons_of_neg (by simp [hc]), List.foldl_cons, hwalk, ih]
      · rw [List.filter_cons_of_pos (by simpa using hc), List.foldl_cons, List.foldl_cons, ih]

theorem mem_passed_of_filter {p q : Place} {cs : List String}
    (h : q ∈ passed p (cs.filter (!isStay ·))) : q ∈ passed p cs := by
  induction cs generalizing p with
  | nil => exact h
  | cons c cs ih =>
      by_cases hc : isStay c = true
      · have hwalk : walk p c = p := by rw [walk, if_pos hc]
        rw [List.filter_cons_of_neg (by simp [hc])] at h
        rw [passed, hwalk]
        exact List.mem_cons_of_mem _ (ih h)
      · rw [List.filter_cons_of_pos (by simpa using hc), passed, List.mem_cons] at h
        rw [passed, List.mem_cons]
        exact h.imp_right ih

theorem no_slash_of_mem_segments {path c : String} (h : c ∈ segments path) : '/' ∉ c.toList := by
  obtain ⟨f, hf, rfl⟩ := List.mem_map.1 h
  rw [String.toList_ofList]
  exact Text.not_mem_of_mem_splitOn hf

theorem mem_segments_of_mem_components {path c : String} (h : c ∈ components path) :
    c ∈ segments path :=
  (List.mem_filter.1 h).1

theorem not_isStay_of_mem_components {path c : String} (h : c ∈ components path) :
    isStay c = false := by
  simpa using (List.mem_filter.1 h).2

/-- Where a route starts. -/
def origin (cwd : Place) (absolute : Bool) : Place :=
  if absolute then [] else cwd

theorem resolve_eq_components (cwd : Place) (path : String) :
    resolve cwd path = (components path).foldl walk ((origin cwd (isAbsolute path)).foldl walk []) := by
  rw [components, foldl_walk_filter, ← List.foldl_append]
  rfl

/-! ## Slashes at the end -/

/-- The path without the slashes at its end, unless it is nothing else. -/
def bare (path : String) : String :=
  if FileTree.stripSlashes path == "" then path else FileTree.stripSlashes path

theorem segments_append_replicate {path base : String} {k : Nat}
    (h : path.toList = base.toList ++ List.replicate k '/') :
    segments path = segments base ++ List.replicate k "" := by
  induction k generalizing path with
  | zero =>
      have hpath : path = base := String.toList_injective (by simpa using h)
      rw [hpath, List.replicate_zero, List.append_nil]
  | succ k ih =>
      let shorter := String.ofList (base.toList ++ List.replicate k '/')
      have hshorter : shorter.toList = base.toList ++ List.replicate k '/' := String.toList_ofList ..
      have hpath : path.toList = shorter.toList ++ '/' :: "".toList := by
        rw [h, hshorter, List.replicate_succ', ← List.append_assoc]
        rfl
      rw [segments_append hpath, ih hshorter, List.replicate_succ', ← List.append_assoc]
      rfl

/-- A path is its bare form with slashes behind it. -/
theorem exists_toList_eq_bare (path : String) :
    ∃ k, path.toList = (bare path).toList ++ List.replicate k '/' ∧
      (path ≠ "" → bare path ≠ "") := by
  by_cases hstrip : FileTree.stripSlashes path = ""
  · have hbare : bare path = path := by rw [bare, hstrip, if_pos (beq_self_eq_true "")]
    exact ⟨0, by simp [hbare], fun h => by rwa [hbare]⟩
  · have hbare : bare path = FileTree.stripSlashes path := by
      rw [bare, if_neg (by simpa using hstrip)]
    refine ⟨(path.toList.reverse.takeWhile (· == '/')).length, ?_, fun _ => by rwa [hbare]⟩
    have hall : path.toList.reverse.takeWhile (· == '/') =
        List.replicate (path.toList.reverse.takeWhile (· == '/')).length '/' := by
      refine List.eq_replicate_iff.2 ⟨rfl, ?_⟩
      intro c hc
      simpa using List.mem_takeWhile_imp hc
    have hsplit := List.takeWhile_append_dropWhile (p := (· == '/')) (l := path.toList.reverse)
    rw [hbare, FileTree.stripSlashes, String.toList_ofList]
    calc path.toList
        = (path.toList.reverse.takeWhile (· == '/') ++
            path.toList.reverse.dropWhile (· == '/')).reverse := by
          rw [hsplit, List.reverse_reverse]
      _ = (path.toList.reverse.dropWhile (· == '/')).reverse ++
            (path.toList.reverse.takeWhile (· == '/')).reverse := List.reverse_append
      _ = _ := by
          rw [hall, List.reverse_replicate, List.length_replicate]

theorem isAbsolute_bare (path : String) : isAbsolute (bare path) = isAbsolute path := by
  obtain ⟨k, hpath, hne⟩ := exists_toList_eq_bare path
  by_cases hempty : path = ""
  · rw [hempty]
    rfl
  · have hbare : (bare path).toList ≠ [] := by simpa using hne hempty
    rw [isAbsolute, isAbsolute, hpath, List.head?_append_of_ne_nil _ hbare]

theorem foldl_walk_replicate (p : Place) (k : Nat) : (List.replicate k "").foldl walk p = p := by
  induction k with
  | zero => rfl
  | succ k ih => rw [List.replicate_succ, List.foldl_cons, walk_empty, ih]

theorem mem_passed_replicate {p q : Place} {k : Nat} (h : q ∈ passed p (List.replicate k "")) :
    q = p := by
  induction k with
  | zero => cases h
  | succ k ih =>
      rw [List.replicate_succ, passed, walk_empty, List.mem_cons] at h
      exact h.elim id ih

theorem exists_route_eq_bare (cwd : Place) (path : String) :
    ∃ k, route cwd path = route cwd (bare path) ++ List.replicate k "" := by
  obtain ⟨k, hpath, -⟩ := exists_toList_eq_bare path
  refine ⟨k, ?_⟩
  rw [route, route, isAbsolute_bare, segments_append_replicate hpath, List.append_assoc]

theorem resolve_bare (cwd : Place) (path : String) :
    resolve cwd (bare path) = resolve cwd path := by
  obtain ⟨k, hroute⟩ := exists_route_eq_bare cwd path
  rw [resolve, resolve, hroute, List.foldl_append, foldl_walk_replicate]

theorem components_bare (path : String) : components (bare path) = components path := by
  obtain ⟨k, hpath, -⟩ := exists_toList_eq_bare path
  have hstay : (List.replicate k "").filter (!isStay ·) = [] := by
    rw [List.filter_eq_nil_iff]
    intro c hc
    rw [List.eq_of_mem_replicate hc]
    decide
  rw [components, components, segments_append_replicate hpath, List.filter_append, hstay,
    List.append_nil]

/-- Slashes at the end lead through no other place. -/
theorem mem_passed_bare {cwd : Place} {path : String} {q : Place}
    (h : q ∈ passed [] (route cwd path)) :
    q ∈ passed [] (route cwd (bare path)) ∨ q = resolve cwd path := by
  obtain ⟨k, hroute⟩ := exists_route_eq_bare cwd path
  rw [hroute, passed_append, List.mem_append] at h
  refine h.imp_right fun hq => ?_
  have hq' := mem_passed_replicate hq
  rw [← resolve, resolve_bare] at hq'
  exact hq'

theorem passed_of_bare {cwd : Place} {path : String} {q : Place}
    (h : q ∈ passed [] (route cwd (bare path))) : q ∈ passed [] (route cwd path) := by
  obtain ⟨k, hroute⟩ := exists_route_eq_bare cwd path
  rw [hroute, passed_append]
  exact List.mem_append_left _ h

theorem Spelled.bare {cwd : Place} {path : String} (h : Spelled cwd path) :
    Spelled cwd (bare path) := by
  obtain ⟨k, hpath, hne⟩ := exists_toList_eq_bare path
  obtain ⟨k', hroute⟩ := exists_route_eq_bare cwd path
  have hsize : path.utf8ByteSize =
      (Path.bare path).utf8ByteSize + (String.ofList (List.replicate k '/')).utf8ByteSize := by
    rw [← String.utf8ByteSize_append]
    congr 1
    exact String.toList_injective (by simp [hpath])
  refine ⟨hne h.ne_empty, ?_, ?_, ?_⟩
  · intro hnul
    refine h.no_nul ?_
    rw [hpath]
    exact List.mem_append_left _ hnul
  · have hshort := h.short
    omega
  · intro c hc
    refine h.names c ?_
    rw [hroute]
    exact List.mem_append_left _ hc

theorem Spelled.of_bare {cwd : Place} {path : String} (h : Spelled cwd (Path.bare path))
    (hne : path ≠ "") (hsize : path.utf8ByteSize ≤ FileTree.longestPath) : Spelled cwd path := by
  obtain ⟨k, hpath, -⟩ := exists_toList_eq_bare path
  obtain ⟨k', hroute⟩ := exists_route_eq_bare cwd path
  refine ⟨hne, ?_, hsize, ?_⟩
  · rw [hpath, List.mem_append, not_or]
    refine ⟨h.no_nul, fun hnul => ?_⟩
    have heq := List.eq_of_mem_replicate hnul
    contradiction
  · intro c hc
    rw [hroute] at hc
    rcases List.mem_append.1 hc with hc | hc
    · exact h.names c hc
    · rw [List.eq_of_mem_replicate hc]
      decide

/-! ## The directory above -/

/-- The path of the directory above, spelled from the components. -/
def up (path : String) : String :=
  FileTree.pathThrough (isAbsolute path) (components path).dropLast

theorem up_bare (path : String) : up (bare path) = up path := by
  rw [up, up, isAbsolute_bare, components_bare]

section

variable {path : String}

theorem dropLast_components_ne_nil (h : 2 ≤ (components path).length) :
    (components path).dropLast ≠ [] := by
  rw [← List.length_pos_iff, List.length_dropLast]
  omega

theorem mem_components_of_mem_dropLast {c : String} (h : c ∈ (components path).dropLast) :
    c ∈ components path :=
  (List.dropLast_sublist _).mem h

/-- What stands in front of the components. -/
def leading (absolute : Bool) : List String :=
  if absolute then [""] else []

theorem toList_pathThrough (absolute : Bool) {cs : List String} (hne : cs ≠ []) :
    (FileTree.pathThrough absolute cs).toList =
      ['/'].intercalate ((leading absolute ++ cs).map String.toList) := by
  have hcs : (String.intercalate "/" cs).toList = ['/'].intercalate (cs.map String.toList) :=
    String.toList_intercalate
  cases absolute with
  | false => simp [FileTree.pathThrough, leading]
  | true =>
      obtain ⟨c, cs, rfl⟩ := List.exists_cons_of_ne_nil hne
      rw [FileTree.pathThrough, if_pos rfl, String.toList_append, hcs]
      simp [leading, List.intercalate_cons_cons]

theorem segments_pathThrough (absolute : Bool) {cs : List String} (hne : cs ≠ [])
    (hslash : ∀ c ∈ cs, '/' ∉ c.toList) :
    segments (FileTree.pathThrough absolute cs) = leading absolute ++ cs := by
  have hsplit : Text.splitOn '/' (['/'].intercalate ((leading absolute ++ cs).map String.toList)) =
      (leading absolute ++ cs).map String.toList := by
    refine Text.splitOn_intercalate (by simp [hne]) ?_
    intro f hf
    obtain ⟨c, hc, rfl⟩ := List.mem_map.1 hf
    rcases List.mem_append.1 hc with hc | hc
    · cases absolute with
      | false => cases hc
      | true =>
          rw [List.mem_singleton.1 hc]
          decide
    · exact hslash c hc
  rw [segments, toList_pathThrough absolute hne, hsplit, List.map_map]
  simp [Function.comp_def]

theorem segments_up (h : 2 ≤ (components path).length) :
    segments (up path) = leading (isAbsolute path) ++ (components path).dropLast := by
  refine segments_pathThrough _ (dropLast_components_ne_nil h) ?_
  intro c hc
  exact no_slash_of_mem_segments
    (mem_segments_of_mem_components (mem_components_of_mem_dropLast hc))

theorem components_up (h : 2 ≤ (components path).length) :
    components (up path) = (components path).dropLast := by
  rw [components, segments_up h, List.filter_append]
  have hleading : (leading (isAbsolute path)).filter (!isStay ·) = [] := by
    cases isAbsolute path with
    | false => rfl
    | true => rfl
  have hkept : (components path).dropLast.filter (!isStay ·) = (components path).dropLast := by
    refine List.filter_eq_self.2 fun c hc => ?_
    rw [not_isStay_of_mem_components (mem_components_of_mem_dropLast hc)]
    rfl
  rw [hleading, hkept, List.nil_append]

theorem isAbsolute_up (h : 2 ≤ (components path).length) :
    isAbsolute (up path) = isAbsolute path := by
  have hne := dropLast_components_ne_nil h
  obtain ⟨c, cs, hcs⟩ := List.exists_cons_of_ne_nil hne
  have hc : c ∈ components path := mem_components_of_mem_dropLast (by rw [hcs]; exact List.mem_cons_self)
  have hslash := no_slash_of_mem_segments (mem_segments_of_mem_components hc)
  have hstay := not_isStay_of_mem_components hc
  have hcempty : c.toList ≠ [] := by
    intro hempty
    have : c = "" := String.toList_injective (by simpa using hempty)
    rw [this] at hstay
    cases hstay
  rw [isAbsolute, up, toList_pathThrough _ hne, hcs]
  cases isAbsolute path with
  | true => simp [leading, List.intercalate_cons_cons]
  | false =>
      obtain ⟨d, ds, hds⟩ := List.exists_cons_of_ne_nil hcempty
      have hd : d ≠ '/' := by
        rintro rfl
        exact hslash (by simp [hds])
      cases cs with
      | nil => simpa [leading, hds] using hd
      | cons c' cs => simpa [leading, List.intercalate_cons_cons, hds] using hd

theorem up_ne_empty (h : 2 ≤ (components path).length) : up path ≠ "" := by
  intro hempty
  have hcomponents := components_up h
  rw [hempty] at hcomponents
  exact dropLast_components_ne_nil h hcomponents.symm

theorem bare_up (h : 2 ≤ (components path).length) : bare (up path) = up path := by
  obtain ⟨k, hpath, -⟩ := exists_toList_eq_bare (up path)
  have hsegments := segments_append_replicate hpath
  rw [segments_up h] at hsegments
  cases k with
  | zero => exact String.toList_injective (by simpa using hpath.symm)
  | succ k =>
      -- a slash at the end would make the last component an empty one
      have hne := dropLast_components_ne_nil h
      have hlast := congrArg List.getLast? hsegments
      rw [List.replicate_succ', ← List.append_assoc, List.getLast?_concat,
        List.getLast?_append_of_ne_nil _ hne] at hlast
      have hmem := mem_components_of_mem_dropLast (List.mem_of_mem_getLast? hlast)
      cases not_isStay_of_mem_components hmem

/-- All components of a path but the last are taken on its way. -/
theorem mem_passed_segments (h : 2 ≤ (components path).length) {start q : Place}
    (hq : q ∈ passed start (components path).dropLast ∨
      q = (components path).dropLast.foldl walk start) : q ∈ passed start (segments path) := by
  have hsplit : components path =
      (components path).dropLast ++ [(components path).getLast (by rintro hn; simp [hn] at h)] :=
    (List.dropLast_append_getLast _).symm
  refine mem_passed_of_filter ?_
  change q ∈ passed start (components path)
  rw [hsplit, passed_append, List.mem_append]
  exact hq.imp_right fun hq => by rw [hq]; exact List.mem_cons_self

/-- An absolute path starts with an empty component. -/
theorem mem_passed_segments_of_leading {start q : Place}
    (hq : q ∈ passed start (leading (isAbsolute path))) : q ∈ passed start (segments path) := by
  have hstart : q = start := by
    cases habsolute : isAbsolute path with
    | false =>
        rw [habsolute] at hq
        cases hq
    | true => simpa [habsolute, leading, passed] using hq
  have hne : segments path ≠ [] := by
    rw [segments]
    simpa using Text.splitOn_ne_nil '/' path.toList
  obtain ⟨c, cs, hcs⟩ := List.exists_cons_of_ne_nil hne
  rw [hstart, hcs]
  exact List.mem_cons_self

/-- The places on the way to the directory above are passed on the way to the path. -/
theorem mem_passed_of_mem_way_up (h : 2 ≤ (components path).length) {cwd q : Place}
    (hq : q ∈ way cwd (up path)) : q ∈ passed [] (route cwd path) := by
  -- both ways start alike, and then take the components one after the other
  let start := (origin cwd (isAbsolute path)).foldl walk []
  have hroute : route cwd path = origin cwd (isAbsolute path) ++ segments path := rfl
  have hup : route cwd (up path) =
      origin cwd (isAbsolute path) ++ (leading (isAbsolute path) ++ (components path).dropLast) := by
    rw [route, isAbsolute_up h, segments_up h]
    rfl
  have hend : resolve cwd (up path) = (components path).dropLast.foldl walk start := by
    rw [resolve_eq_components, components_up h, isAbsolute_up h]
  have hleading : (leading (isAbsolute path)).foldl walk start = start := by
    cases isAbsolute path with
    | false => rfl
    | true => rfl
  rw [hroute, passed_append, List.mem_append]
  rw [way, List.mem_append, List.mem_singleton, hend, hup, passed_append, List.mem_append] at hq
  rcases hq with (hq | hq) | hq
  · exact .inl hq
  · right
    change q ∈ passed start _ at hq
    rw [passed_append, List.mem_append, hleading] at hq
    exact hq.elim mem_passed_segments_of_leading fun hq => mem_passed_segments h (.inl hq)
  · exact .inr (mem_passed_segments h (.inr hq))

end

theorem intercalate_splitOn (sep : Char) (cs : List Char) :
    [sep].intercalate (Text.splitOn sep cs) = cs := by
  induction cs with
  | nil => rfl
  | cons c cs ih =>
      rw [Text.splitOn]
      cases hs : Text.splitOn sep cs with
      | nil => exact absurd hs (Text.splitOn_ne_nil sep cs)
      | cons f fs =>
          rw [hs] at ih
          split
          · next hc => rw [List.intercalate_cons_cons, ih, beq_iff_eq.1 hc]; rfl
          · cases fs with
            | nil =>
                rw [List.intercalate_singleton] at ih ⊢
                rw [ih]
            | cons g fs =>
                rw [List.intercalate_cons_cons] at ih ⊢
                rw [← ih]
                rfl

theorem intercalate_sublist {sep : List Char} {l l' : List (List Char)} (h : l.Sublist l') :
    (sep.intercalate l).Sublist (sep.intercalate l') := by
  induction h with
  | slnil => exact List.Sublist.refl _
  | @cons l l' f h ih =>
      cases l' with
      | nil =>
          rw [List.sublist_nil.1 h]
          exact List.nil_sublist _
      | cons g l' =>
          rw [List.intercalate_cons_cons]
          exact ih.trans (List.sublist_append_right _ _)
  | @cons_cons l l' f h ih =>
      cases l with
      | nil =>
          cases l' with
          | nil => exact List.Sublist.refl _
          | cons g l' =>
              rw [List.intercalate_singleton, List.intercalate_cons_cons, List.append_assoc]
              exact List.sublist_append_left _ _
      | cons k l =>
          cases l' with
          | nil => cases h
          | cons g l' =>
              rw [List.intercalate_cons_cons, List.intercalate_cons_cons]
              exact (List.Sublist.refl _).append ih

/-- The directory above is spelled with some of the characters of the path. -/
theorem up_sublist {path : String} (h : 2 ≤ (components path).length) :
    (up path).toList.Sublist path.toList := by
  have hfields : ((leading (isAbsolute path) ++ (components path).dropLast).map String.toList).Sublist
      (Text.splitOn '/' path.toList) := by
    have hback : (segments path).map String.toList = Text.splitOn '/' path.toList := by
      rw [segments, List.map_map]
      simp [Function.comp_def]
    rw [← hback]
    refine List.Sublist.map _ ?_
    cases habsolute : isAbsolute path with
    | false => exact (List.dropLast_sublist _).trans List.filter_sublist
    | true =>
        -- the first segment is empty, and no component
        obtain ⟨rest, hrest⟩ : ∃ rest, path.toList = '/' :: rest := by
          rw [isAbsolute, beq_iff_eq] at habsolute
          exact List.head?_eq_some_iff.1 habsolute
        have hsegments : segments path = "" :: segments (String.ofList rest) :=
          @segments_append path "" _ (by simp [hrest])
        have hcomponents : components path = (segments (String.ofList rest)).filter (!isStay ·) := by
          rw [components, hsegments, List.filter_cons_of_neg (by decide)]
        rw [hsegments, hcomponents]
        exact ((List.dropLast_sublist _).trans List.filter_sublist).cons_cons _
  have hsublist := @intercalate_sublist ['/'] _ _ hfields
  rw [intercalate_splitOn] at hsublist
  rwa [up, toList_pathThrough _ (dropLast_components_ne_nil h)]

theorem Spelled.up {cwd : Place} {path : String} (h : Spelled cwd path)
    (hlength : 2 ≤ (components path).length) : Spelled cwd (up path) := by
  have hsublist := up_sublist hlength
  refine ⟨up_ne_empty hlength, ?_, ?_, ?_⟩
  · intro hnul
    exact h.no_nul (hsublist.mem hnul)
  · have hshort := h.short
    have hle := String.utf8Len_le_of_sublist hsublist
    rw [← String.utf8ByteSize_ofList, ← String.utf8ByteSize_ofList, String.ofList_toList,
      String.ofList_toList] at hle
    omega
  · intro c hc
    rw [route, isAbsolute_up hlength, segments_up hlength] at hc
    have hnames := h.names
    rw [route] at hnames
    rcases List.mem_append.1 hc with hc | hc
    · exact hnames c (List.mem_append_left _ hc)
    · rcases List.mem_append.1 hc with hc | hc
      · have : c = "" := by
          cases habsolute : isAbsolute path with
          | false =>
              rw [habsolute] at hc
              cases hc
          | true =>
              rw [habsolute] at hc
              exact List.mem_singleton.1 hc
        rw [this]
        decide
      · exact hnames c (List.mem_append_right _
          (mem_segments_of_mem_components (mem_components_of_mem_dropLast hc)))

/-- Going up, a path is short in the end. -/
@[elab_as_elim]
theorem up_induction {P : String → Prop} (short : ∀ path, (components path).length < 2 → P path)
    (step : ∀ path, 2 ≤ (components path).length → P (up path) → P path) (path : String) :
    P path := by
  generalize hn : (components path).length = n
  induction n generalizing path with
  | zero => exact short path (by omega)
  | succ n ih =>
      by_cases h : 2 ≤ (components path).length
      · refine step path h (ih (up path) ?_)
        rw [components_up h, List.length_dropLast]
        omega
      · exact short path (by omega)

end Path

namespace FileTree

section

variable {t t' : FileTree} {path : String}

/-! ## One directory -/

theorem passes_of_makeDirectory (h : t.makeDirectory path = .ok t') :
    t.Passes (Path.bare path) ∧ t.Takes (Path.resolve t.cwd path) ∧
      t.node? (Path.resolve t.cwd path) = none ∧
      t' = t.set (Path.resolve t.cwd path) .directory := by
  unfold makeDirectory at h
  dsimp only at h
  rw [← Path.bare] at h
  cases hf : t.follow (Path.bare path) with
  | error e =>
      rw [hf] at h
      cases h
  | ok s =>
      obtain ⟨hpasses, hsound, hplace⟩ := follow_sound hf
      rw [Path.resolve_bare] at hplace
      rw [hf] at h
      dsimp only [bind, Except.bind] at h
      cases hhere : s.here with
      | some b =>
          rw [hhere] at h
          cases h
      | none =>
          rw [hhere] at h
          cases h
          have hnode : s.node? = none := by rw [Spot.node?, hhere, Option.map_none]
          rw [← hplace]
          refine ⟨hpasses, hsound.takes (by simp [hnode]), ?_, rfl⟩
          rw [← hsound.node?_eq, hnode]

theorem ensureDirectory_cases (h : t.ensureDirectory path = .ok t') :
    t.makeDirectory path = .ok t' ∨ t' = t ∧ t.isDirectory path = true := by
  unfold ensureDirectory at h
  split at h
  · next hmake =>
      cases h
      exact .inl hmake
  · cases h
  · split at h
    · next hdir =>
        cases h
        exact .inr ⟨rfl, hdir⟩
    · cases h

/-- A directory that is there has a way to it that does not end in slashes. -/
theorem passes_bare (h : t.isDirectory path = true) : t.Passes (Path.bare path) := by
  obtain ⟨⟨hspelled, hpassed⟩, -⟩ := isDirectory_iff.1 h
  exact ⟨hspelled.bare, fun q hq => hpassed q (Path.passed_of_bare hq)⟩

theorem ensureDirectory_of_isDirectory (h : t.isDirectory path = true) :
    t.ensureDirectory path = .ok t := by
  obtain ⟨s, hs, hsound, hplace⟩ := (passes_bare h).follow
  have hdir := (isDirectory_iff.1 h).2
  rw [Path.resolve_bare] at hplace
  rw [← hplace, ← hsound.node?_eq, Spot.node?] at hdir
  have hmake : t.makeDirectory path = .error .alreadyExists := by
    change (t.follow (Path.bare path)).bind _ = _
    rw [hs]
    dsimp only [Except.bind]
    cases hhere : s.here with
    | none =>
        rw [hhere] at hdir
        cases hdir
    | some b => rfl
  simp only [ensureDirectory, hmake, h, if_true]

/-- A directory that was made is there, but for slashes at the end of the path. -/
theorem isDirectory_bare_of_ensureDirectory (h : t.ensureDirectory path = .ok t') :
    t'.isDirectory (Path.bare path) = true := by
  rcases ensureDirectory_cases h with hmake | ⟨rfl, hdir⟩
  · obtain ⟨⟨hspelled, hpassed⟩, htakes, hnone, rfl⟩ := passes_of_makeDirectory hmake
    have hnode := node?_set htakes .directory
    rw [isDirectory_iff, Passes, cwd_set, Path.resolve_bare, hnode, if_pos rfl]
    refine ⟨⟨hspelled, fun q hq => ?_⟩, rfl⟩
    have hdir := hpassed q hq
    have hne : q ≠ Path.resolve t.cwd path := by
      rintro rfl
      rw [hnone] at hdir
      cases hdir
    rw [hnode, if_neg hne, hdir]
  · rw [isDirectory_iff, Path.resolve_bare]
    exact ⟨passes_bare hdir, (isDirectory_iff.1 hdir).2⟩

/-- The slashes make no difference unless they make the path too long. -/
theorem isDirectory_of_bare (h : t.isDirectory (Path.bare path) = true)
    (hspelled : Path.Spelled t.cwd path) : t.isDirectory path = true := by
  obtain ⟨⟨-, hpassed⟩, hdir⟩ := isDirectory_iff.1 h
  rw [Path.resolve_bare] at hdir
  rw [isDirectory_iff]
  refine ⟨⟨hspelled, fun q hq => ?_⟩, hdir⟩
  rcases Path.mem_passed_bare hq with hq | rfl
  · exact hpassed q hq
  · exact hdir

/-- Where a directory is or can be made, there is one above. -/
theorem isDirectory_up_of_ensureDirectory (h : t.ensureDirectory path = .ok t')
    (hlength : 2 ≤ (Path.components path).length) : t.isDirectory (Path.up path) = true := by
  have hpasses : t.Passes (Path.bare path) := by
    rcases ensureDirectory_cases h with hmake | ⟨-, hdir⟩
    · exact (passes_of_makeDirectory hmake).1
    · exact passes_bare hdir
  have hlength' : 2 ≤ (Path.components (Path.bare path)).length := by rwa [Path.components_bare]
  rw [isDirectory_iff_way, ← Path.up_bare]
  refine ⟨hpasses.1.up hlength', fun q hq => hpasses.2 q ?_⟩
  exact Path.mem_passed_of_mem_way_up hlength' hq

theorem node?_ensureDirectory (h : t.ensureDirectory path = .ok t') {q : Place}
    (hq : q ≠ Path.resolve t.cwd path) : t'.node? q = t.node? q := by
  rcases ensureDirectory_cases h with hmake | ⟨rfl, -⟩
  · obtain ⟨-, htakes, -, rfl⟩ := passes_of_makeDirectory hmake
    rw [node?_set htakes, if_neg hq]
  · rfl

/-! ## All that is missing -/

seal ensureDirectory in
theorem makeDirectories_of_short (t : FileTree) (hne : path ≠ "")
    (hlength : (Path.components path).length < 2) :
    t.makeDirectories path =
      match t.ensureDirectory path with
      | .ok t' => (.ok (), t')
      | .error e => (.error e, t) := by
  have hempty : (path == "") = false := by simpa using hne
  have habove : (Path.components path).reverse.tail = [] := by
    rw [← List.length_eq_zero_iff, List.length_tail, List.length_reverse]
    omega
  rw [makeDirectories, hempty, if_neg Bool.false_ne_true, habove]
  exact makeDown_nil _ t path

seal ensureDirectory in
theorem makeDirectories_of_up (t : FileTree) (hlength : 2 ≤ (Path.components path).length) :
    t.makeDirectories path =
      match t.ensureDirectory path with
      | .ok t' => (.ok (), t')
      | .error .notFound =>
          match t.makeDirectories (Path.up path) with
          | (.error e, t') => (.error e, t')
          | (.ok (), t') =>
              match t'.ensureDirectory path with
              | .ok t'' => (.ok (), t'')
              | .error e => (.error e, t')
      | .error e => (.error e, t) := by
  have hempty : (path == "") = false := by
    rw [beq_eq_false_iff_ne]
    rintro rfl
    exact absurd hlength (by decide)
  have hempty' : (Path.up path == "") = false := by simpa using Path.up_ne_empty hlength
  have hne : (Path.components path).dropLast.reverse ≠ [] := by
    simpa using Path.dropLast_components_ne_nil hlength
  obtain ⟨parent, above, habove⟩ := List.exists_cons_of_ne_nil hne
  have hup : pathThrough (Path.isAbsolute path) (parent :: above).reverse = Path.up path := by
    rw [← habove, List.reverse_reverse]
    rfl
  have hmake : t.makeDirectories (Path.up path) =
      t.makeDown (Path.isAbsolute path) (Path.up path) above := by
    rw [makeDirectories, hempty', if_neg Bool.false_ne_true, Path.isAbsolute_up hlength,
      Path.components_up hlength, habove, List.tail_cons]
  rw [hmake, ← hup, makeDirectories, hempty, if_neg Bool.false_ne_true, List.tail_reverse, habove]
  exact makeDown_cons _ t path parent above

/-- **Directories are made on the way of the path and nowhere else.** -/
theorem node?_makeDirectories (t : FileTree) (path : String) {q : Place}
    (hq : q ∉ Path.way t.cwd path) : (t.makeDirectories path).2.node? q = t.node? q := by
  induction path using Path.up_induction with
  | short path hlength =>
      have hend : q ≠ Path.resolve t.cwd path := by
        rintro rfl
        exact hq (by simp [Path.way])
      by_cases hne : path = ""
      · rw [hne]
        rfl
      · rw [makeDirectories_of_short t hne hlength]
        split
        · next h => exact node?_ensureDirectory h hend
        · rfl
  | step path hlength ih =>
      have hend : q ≠ Path.resolve t.cwd path := by
        rintro rfl
        exact hq (by simp [Path.way])
      have hup : q ∉ Path.way t.cwd (Path.up path) := by
        intro hmem
        refine hq (List.mem_append_left _ ?_)
        exact Path.mem_passed_of_mem_way_up hlength hmem
      have hcwd := (Widened.makeDirectories t (Path.up path)).cwd
      have habove := ih hup
      rw [makeDirectories_of_up t hlength]
      split
      · next h => exact node?_ensureDirectory h hend
      · split
        · next h =>
            rw [h] at habove
            exact habove
        · next h =>
            rw [h] at habove hcwd
            split
            · next h' =>
                rw [node?_ensureDirectory h' (by rwa [hcwd])]
                exact habove
            · exact habove
      · rfl

/-- Nothing is left to do for a directory that is there. -/
theorem makeDirectories_of_isDirectory (h : t.isDirectory path = true) :
    t.makeDirectories path = (.ok (), t) := by
  have hensure := ensureDirectory_of_isDirectory h
  by_cases hlength : 2 ≤ (Path.components path).length
  · rw [makeDirectories_of_up t hlength, hensure]
  · have hne := (isDirectory_iff.1 h).1.1.ne_empty
    rw [makeDirectories_of_short t hne (by omega), hensure]

/-- What was made is there, but for slashes at the end of the path. -/
theorem isDirectory_of_makeDirectories (hne : path ≠ "")
    (h : t.makeDirectories path = (.ok (), t')) : t'.isDirectory (Path.bare path) = true := by
  by_cases hlength : 2 ≤ (Path.components path).length
  · rw [makeDirectories_of_up t hlength] at h
    split at h
    · next hensure =>
        cases h
        exact isDirectory_bare_of_ensureDirectory hensure
    · split at h
      · cases h
      · split at h
        · next hensure =>
            cases h
            exact isDirectory_bare_of_ensureDirectory hensure
        · cases h
    · cases h
  · rw [makeDirectories_of_short t hne (by omega)] at h
    split at h
    · next hensure =>
        cases h
        exact isDirectory_bare_of_ensureDirectory hensure
    · cases h

end

/-- **A failure is final.**  Trying again fails too, and changes nothing. -/
theorem makeDirectories_again {t t' : FileTree} {path : String} {e : FileError}
    (h : t.makeDirectories path = (.error e, t')) :
    ∃ e', t'.makeDirectories path = (.error e', t') := by
  induction path using Path.up_induction generalizing t t' e with
  | short path hlength =>
      have hne : path ≠ "" := by
        rintro rfl
        cases h
      have heq := h
      rw [makeDirectories_of_short t hne hlength] at heq
      split at heq
      · cases heq
      · cases heq
        exact ⟨e, h⟩
  | step path hlength ih =>
      have heq := h
      rw [makeDirectories_of_up t hlength] at heq
      split at heq
      · cases heq
      · split at heq
        · next hup =>
            -- there was no getting to the directory above
            cases heq
            obtain ⟨e', hagain⟩ := ih hup
            cases hensure : t'.ensureDirectory path with
            | ok t'' =>
                have hdir := isDirectory_up_of_ensureDirectory hensure hlength
                cases hagain.symm.trans (makeDirectories_of_isDirectory hdir)
            | error e'' =>
                rw [makeDirectories_of_up t' hlength, hensure]
                cases e'' with
                | notFound =>
                    dsimp only
                    rw [hagain]
                    exact ⟨e', rfl⟩
                | _ => exact ⟨_, rfl⟩
        · next t₁ hup =>
            split at heq
            · cases heq
            · next hensure =>
                -- the directory above is there, and this one cannot be made in it
                cases heq
                rw [makeDirectories_of_up t' hlength, hensure]
                cases e with
                | notFound =>
                    have hdir := isDirectory_of_makeDirectories (Path.up_ne_empty hlength) hup
                    rw [Path.bare_up hlength] at hdir
                    dsimp only
                    rw [makeDirectories_of_isDirectory hdir]
                    dsimp only
                    rw [hensure]
                    exact ⟨_, rfl⟩
                | _ => exact ⟨_, rfl⟩
      · cases heq
        exact ⟨e, h⟩

end FileTree
end Loopsmith
