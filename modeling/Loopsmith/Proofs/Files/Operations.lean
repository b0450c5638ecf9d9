import Loopsmith.Proofs.Files.Places
import Loopsmith.Proofs.Text.Fields
import Mathlib.Data.List.TakeDrop

/-!
# What the operations do to the tree

Each operation that succeeds is one change at the places that its paths lead to, and the lemmas
here say which: `writeFile_eq_ok`, `copy_eq_ok`, `rename_eq_ok`, `remove_eq_ok` and
`makeDirectory_eq_ok`.  Making a directory with all that is missing above it takes several
changes, and what matters about them is that they only add directories (`Widened`).

Most paths that the library uses are a directory with one more name, and these lead to the place
of that name in the directory (`Path.resolve_join`).
-/

namespace Loopsmith

/-! ## A name in a directory -/

namespace Path

/-- A name that leads from a directory to something in it. -/
structure IsComponent (x : String) : Prop where
  no_slash : '/' ∉ x.toList
  no_stay : isStay x = false
  no_up : (x == "..") = false

theorem isComponent_of_head {x : String} (hslash : '/' ∉ x.toList)
    (hhead : ∃ c, x.toList.head? = some c ∧ c ≠ '.') : IsComponent x := by
  obtain ⟨c, hc, hdot⟩ := hhead
  have hne : ∀ y : String, y.toList.head? ≠ some c → x ≠ y := by
    rintro y hy rfl
    exact hy hc
  refine ⟨hslash, ?_, ?_⟩
  · rw [isStay, Bool.or_eq_false_iff, beq_eq_false_iff_ne, beq_eq_false_iff_ne]
    exact ⟨hne "" (by simp), hne "." (by simpa using Ne.symm hdot)⟩
  · rw [beq_eq_false_iff_ne]
    exact hne ".." (by simpa using Ne.symm hdot)

namespace IsComponent

variable {x : String}

theorem segments_eq (hx : IsComponent x) : segments x = [x] := by
  rw [segments, Text.splitOn_of_not_mem hx.no_slash, List.map_singleton, String.ofList_toList]

theorem walk_eq (hx : IsComponent x) (p : Place) : walk p x = p ++ [x] := by
  rw [walk, hx.no_stay, hx.no_up, if_neg Bool.false_ne_true, if_neg Bool.false_ne_true]

theorem ne_empty (hx : IsComponent x) : x ≠ "" := by
  rintro rfl
  have := hx.no_stay
  contradiction

theorem isAbsolute_eq (hx : IsComponent x) : isAbsolute x = false := by
  rw [isAbsolute, beq_eq_false_iff_ne]
  intro hhead
  exact hx.no_slash (List.mem_of_mem_head? hhead)

end IsComponent

theorem walk_empty (p : Place) : walk p "" = p :=
  rfl

theorem segments_append {path base rest : String}
    (h : path.toList = base.toList ++ '/' :: rest.toList) :
    segments path = segments base ++ segments rest := by
  rw [segments, h, Text.splitOn_append, List.map_append, segments, segments]

theorem isAbsolute_append {base : String} (hbase : base ≠ "") (rest : String) :
    isAbsolute (base ++ rest) = isAbsolute base := by
  have hne : base.toList ≠ [] := by simpa using hbase
  obtain ⟨c, cs, hcs⟩ := List.exists_cons_of_ne_nil hne
  simp [isAbsolute, hcs]

theorem exists_toList_join (base path : String) :
    ∃ before, (join base path).toList = before ++ path.toList := by
  rw [join]
  split
  · exact ⟨[], rfl⟩
  · split
    · exact ⟨base.toList, by simp⟩
    · exact ⟨base.toList ++ ['/'], by simp⟩

theorem join_ne_empty {name : String} (hname : IsComponent name) (base : String) :
    join base name ≠ "" := by
  obtain ⟨before, hbefore⟩ := exists_toList_join base name
  intro hempty
  rw [hempty] at hbefore
  have hnil : name.toList = [] := (List.append_eq_nil_iff.1 hbefore.symm).2
  exact hname.ne_empty (by simpa using hnil)

theorem getLast?_join {x : String} (hx : IsComponent x) (base : String) :
    (join base x).toList.getLast? ≠ some '/' := by
  obtain ⟨before, hbefore⟩ := exists_toList_join base x
  have hne : x.toList ≠ [] := by simpa using hx.ne_empty
  rw [hbefore, List.getLast?_append_of_ne_nil _ hne]
  intro hlast
  exact hx.no_slash (List.mem_of_mem_getLast? hlast)

theorem toList_join {base x : String} (hx : IsComponent x) (hbase : base ≠ "")
    (hlast : base.toList.getLast? ≠ some '/') :
    (join base x).toList = base.toList ++ '/' :: x.toList := by
  have hempty : (base == "") = false := by simpa using hbase
  have hslash : (base.toList.getLast? == some '/') = false := by simpa using hlast
  simp [join, hx.isAbsolute_eq, hempty, hslash]

/-- A path that does not end in a slash goes on with the next name. -/
theorem route_join {base x : String} (hx : IsComponent x) (hbase : base ≠ "")
    (hlast : base.toList.getLast? ≠ some '/') (cwd : Place) :
    route cwd (join base x) = route cwd base ++ [x] := by
  have hsegments : segments (join base x) = segments base ++ [x] := by
    rw [← hx.segments_eq]
    exact segments_append (toList_join hx hbase hlast)
  have habsolute : isAbsolute (join base x) = isAbsolute base := by
    rw [isAbsolute, toList_join hx hbase hlast, isAbsolute]
    have hne : base.toList ≠ [] := by simpa using hbase
    rw [List.head?_append_of_ne_nil _ hne]
  rw [route, habsolute, hsegments, route, List.append_assoc]

/-- The place of a name in a directory. -/
theorem resolve_join {x : String} (hx : IsComponent x) (cwd : Place) (base : String) :
    resolve cwd (join base x) = resolve cwd base ++ [x] := by
  by_cases hbase : base = ""
  · -- the empty path is the working directory
    subst hbase
    have hjoin : join "" x = x := by simp [join]
    have hstay : segments "" = [""] := rfl
    have hrelative : isAbsolute "" = false := rfl
    rw [hjoin, resolve, resolve, route, route, hx.isAbsolute_eq, hx.segments_eq, hrelative, hstay,
      List.foldl_concat, List.foldl_concat, hx.walk_eq, walk_empty]
  · by_cases hlast : base.toList.getLast? = some '/'
    · obtain ⟨cs, hcs⟩ := List.getLast?_eq_some_iff.1 hlast
      have hjoin : join base x = base ++ x := by
        have hempty : (base == "") = false := by simpa using hbase
        simp [join, hx.isAbsolute_eq, hempty, hlast]
      have hlong : segments (base ++ x) = segments (String.ofList cs) ++ [x] := by
        rw [← hx.segments_eq]
        refine segments_append ?_
        simp [hcs]
      have hshort : segments base = segments (String.ofList cs) ++ [""] := by
        have hstay : segments "" = [""] := rfl
        rw [← hstay]
        refine segments_append ?_
        simp [hcs]
      rw [hjoin, resolve, resolve, route, route, isAbsolute_append hbase, hlong, hshort,
        ← List.append_assoc, ← List.append_assoc, List.foldl_concat, List.foldl_concat,
        hx.walk_eq, walk_empty]
    · rw [resolve, route_join hx hbase hlast, List.foldl_concat, hx.walk_eq, resolve]

/-- Changing the extension of a name in a directory. -/
theorem withExtension_of_toList {path : String} {dir name : List Char}
    (h : path.toList = dir ++ '/' :: name) (hname : '/' ∉ name) (extension : String) :
    withExtension path extension = String.ofList (dir ++ '/' ::
      (if stem name == ['.'] && name != ['.'] then ['.', '.']
        else stem name ++ '.' :: extension.toList)) := by
  have hall : ∀ c ∈ name.reverse, (c != '/') = true := by
    intro c hc
    rw [bne_iff_ne]
    rintro rfl
    exact hname (List.mem_reverse.1 hc)
  have hspan : path.toList.reverse.span (· != '/') = (name.reverse, '/' :: dir.reverse) := by
    rw [List.span_eq_takeWhile_dropWhile, h, List.reverse_append, List.reverse_cons,
      List.append_assoc, List.takeWhile_append_of_pos hall, List.dropWhile_append_of_pos hall]
    simp
  rw [withExtension, hspan]
  simp

example : withExtension "a.b/k.so" "tmp" = "a.b/k.tmp" := by decide

example : withExtension "a/..so" "tmp" = "a/.." := by decide

/-- The text before an extension. -/
theorem stem_append {before after : List Char} (hbefore : before ≠ []) (hafter : '.' ∉ after) :
    stem (before ++ '.' :: after) = before := by
  have hall : ∀ c ∈ after.reverse, (c != '.') = true := by
    intro c hc
    rw [bne_iff_ne]
    rintro rfl
    exact hafter (List.mem_reverse.1 hc)
  have hdrop : (before ++ '.' :: after).reverse.dropWhile (· != '.') =
      '.' :: before.reverse := by
    rw [List.reverse_append, List.reverse_cons, List.append_assoc,
      List.dropWhile_append_of_pos hall]
    simp
  rw [stem, hdrop]
  cases hrev : before.reverse with
  | nil => exact absurd (List.reverse_eq_nil_iff.1 hrev) hbefore
  | cons c cs =>
      dsimp only
      rw [← hrev, List.reverse_reverse]

theorem spelled_of_join {cwd : Place} {base x : String} (hx : IsComponent x) (hbase : base ≠ "")
    (hlast : base.toList.getLast? ≠ some '/') (h : Spelled cwd (join base x)) :
    Spelled cwd base := by
  have hjoin : ∃ rest, join base x = base ++ rest := by
    rw [join]
    split
    · next hor => simp [hx.isAbsolute_eq, hbase] at hor
    · split
      · exact ⟨x, rfl⟩
      · exact ⟨"/" ++ x, String.append_assoc⟩
  obtain ⟨rest, hrest⟩ := hjoin
  refine ⟨hbase, ?_, ?_, ?_⟩
  · intro hnul
    refine h.no_nul ?_
    rw [hrest, String.toList_append]
    exact List.mem_append_left _ hnul
  · have hshort := h.short
    rw [hrest, String.utf8ByteSize_append] at hshort
    omega
  · intro c hc
    refine h.names c ?_
    rw [route_join hx hbase hlast]
    exact List.mem_append_left _ hc

end Path

namespace FileTree

/-- What it takes to get to a name in a directory. -/
theorem passes_join_iff {t : FileTree} {base x : String} (hx : Path.IsComponent x)
    (hbase : base ≠ "") (hlast : base.toList.getLast? ≠ some '/') :
    t.Passes (Path.join base x) ↔
      Path.Spelled t.cwd (Path.join base x) ∧ t.isDirectory base = true := by
  have hpassed : Path.passed [] (Path.route t.cwd (Path.join base x)) =
      Path.passed [] (Path.route t.cwd base) ++ [Path.resolve t.cwd base] := by
    rw [Path.route_join hx hbase hlast, Path.passed_append]
    rfl
  rw [isDirectory_iff, Passes, Passes, hpassed]
  constructor
  · rintro ⟨hspelled, hdirs⟩
    refine ⟨hspelled, ⟨Path.spelled_of_join hx hbase hlast hspelled, ?_⟩, ?_⟩
    · intro q hq
      exact hdirs q (List.mem_append_left _ hq)
    · exact hdirs _ (by simp)
  · rintro ⟨hspelled, ⟨-, hdirs⟩, hdir⟩
    refine ⟨hspelled, ?_⟩
    intro q hq
    rcases List.mem_append.1 hq with hq | hq
    · exact hdirs q hq
    · rw [List.mem_singleton.1 hq, hdir]

/-! ## Files -/

theorem locateNew_eq_ok {t : FileTree} {path : String} {s : Spot} (h : t.locateNew path = .ok s) :
    t.Passes path ∧ t.Takes (Path.resolve t.cwd path) ∧ s.place = Path.resolve t.cwd path := by
  rw [locateNew] at h
  cases hf : t.follow (if stripSlashes path == "" then path else stripSlashes path) with
  | error e =>
      simp only [hf] at h
      cases h
  | ok s' =>
      simp only [hf, bind, Except.bind] at h
      split at h
      · cases h
      · next hnot =>
          split at h
          · next hsame =>
              cases h
              have hpath : (if stripSlashes path == "" then path else stripSlashes path) = path := by
                rw [beq_iff_eq.1 hsame]
                split <;> rfl
              rw [hpath] at hf
              obtain ⟨hpasses, hsound, hplace⟩ := follow_sound hf
              refine ⟨hpasses, ?_, hplace⟩
              rw [← hplace]
              exact hsound.takes hnot
          · cases h

theorem writeFile_eq_ok {t t' : FileTree} {path : String} {bytes : List UInt8}
    (h : t.writeFile path bytes = .ok t') :
    t.Passes path ∧ t.Takes (Path.resolve t.cwd path) ∧
      t' = t.set (Path.resolve t.cwd path) (.file bytes) := by
  rw [writeFile] at h
  cases hl : t.locateNew path with
  | error e =>
      rw [hl] at h
      cases h
  | ok s =>
      obtain ⟨hpasses, htakes, hplace⟩ := locateNew_eq_ok hl
      rw [hl] at h
      cases h
      exact ⟨hpasses, htakes, by rw [hplace]⟩

/-- What was written can be read. -/
theorem readFile_of_writeFile {t t' : FileTree} {path : String} {bytes : List UInt8}
    (h : t.writeFile path bytes = .ok t') : t'.readFile path = .ok bytes := by
  obtain ⟨⟨hspelled, hdirs⟩, htakes, rfl⟩ := writeFile_eq_ok h
  have hnode := node?_set htakes (.file bytes)
  rw [readFile_eq_ok_iff, Passes, cwd_set]
  refine ⟨⟨hspelled, ?_⟩, (hnode _).trans (if_pos rfl)⟩
  intro q hq
  have hne : q ≠ Path.resolve t.cwd path := by
    rintro rfl
    exact htakes.2 (hdirs _ hq)
  rw [hnode, if_neg hne, hdirs q hq]

theorem copy_eq_ok {t t' : FileTree} {source target : String}
    (h : t.copy source target = .ok t') :
    ∃ bytes, t.readFile source = .ok bytes ∧ t.Passes target ∧
      t.Takes (Path.resolve t.cwd target) ∧
      t' = t.set (Path.resolve t.cwd target)
        (.file (if Path.resolve t.cwd target = Path.resolve t.cwd source then [] else bytes)) := by
  rw [copy] at h
  cases hf : t.follow source with
  | error e =>
      rw [hf] at h
      cases h
  | ok s =>
      obtain ⟨hpasses, hsound, hplace⟩ := follow_sound hf
      have hnode : s.node? = t.node? (Path.resolve t.cwd source) := by
        rw [hsound.node?_eq, hplace]
      rw [hf] at h
      dsimp only [bind, Except.bind] at h
      split at h
      · cases h
      · cases h
      · next bytes hbytes =>
          rw [hnode] at hbytes
          split at h
          · cases h
          · next d hl =>
              obtain ⟨hpasses', htakes, hplace'⟩ := locateNew_eq_ok hl
              cases h
              refine ⟨bytes, readFile_eq_ok_iff.2 ⟨hpasses, hbytes⟩, hpasses', htakes, ?_⟩
              rw [hplace, hplace']
              simp only [beq_iff_eq]

/-- Moving a file. -/
theorem rename_eq_ok {t t' : FileTree} {source target : String} {bytes : List UInt8}
    (hfile : t.node? (Path.resolve t.cwd source) = some (.file bytes))
    (h : t.rename source target = .ok t') :
    t.Passes target ∧ t.Takes (Path.resolve t.cwd target) ∧
      t' = (t.drop (Path.resolve t.cwd source)).put (Path.resolve t.cwd target) (.file bytes) := by
  rw [rename] at h
  cases hs : t.follow source with
  | error e =>
      rw [hs] at h
      cases h
  | ok s =>
      cases hd : t.follow target with
      | error e =>
          rw [hs, hd] at h
          cases h
      | ok d =>
          obtain ⟨-, hsound, hplace⟩ := follow_sound hs
          obtain ⟨hpasses, hsound', hplace'⟩ := follow_sound hd
          have hhere : s.here = some (.file bytes) := by
            have hnode := hsound.node?_eq
            rw [hplace, hfile, Spot.node?] at hnode
            obtain ⟨b, hb, hbytes⟩ := Option.map_eq_some_iff.1 hnode
            cases b with
            | file bytes' =>
                cases hbytes
                exact hb
            | directory entries => cases hbytes
          rw [hs, hd] at h
          dsimp only [bind, Except.bind] at h
          rw [hhere] at h
          cases hn : d.node? with
          | none =>
              rw [hn] at h
              cases h
              refine ⟨hpasses, ?_, by rw [hplace, hplace']⟩
              rw [← hplace']
              exact hsound'.takes (by simp [hn])
          | some n =>
              cases n with
              | directory =>
                  rw [hn] at h
                  cases h
              | file old =>
                  rw [hn] at h
                  cases h
                  refine ⟨hpasses, ?_, by rw [hplace, hplace']⟩
                  rw [← hplace']
                  exact hsound'.takes (by simp [hn])

theorem remove_eq_ok {t t' : FileTree} {path : String} (h : t.remove path = .ok t') :
    t.Passes path ∧ t' = t.drop (Path.resolve t.cwd path) := by
  rw [remove] at h
  cases hf : t.follow path with
  | error e =>
      rw [hf] at h
      cases h
  | ok s =>
      obtain ⟨hpasses, -, hplace⟩ := follow_sound hf
      rw [hf] at h
      dsimp only [bind, Except.bind] at h
      split at h
      · cases h
      · cases h
        exact ⟨hpasses, by rw [hplace]⟩

/-! ## Directories -/

theorem stripSlashes_of_getLast? {path : String} (h : path.toList.getLast? ≠ some '/') :
    stripSlashes path = path := by
  refine String.toList_injective ?_
  rw [stripSlashes, String.toList_ofList]
  cases hrev : path.toList.reverse with
  | nil => simpa using hrev.symm
  | cons c cs =>
      have hc : (c == '/') = false := by
        rw [beq_eq_false_iff_ne]
        rintro rfl
        refine h ?_
        rw [List.getLast?_eq_head?_reverse, hrev, List.head?_cons]
      rw [List.dropWhile_cons, hc, if_neg Bool.false_ne_true, ← hrev, List.reverse_reverse]

theorem makeDirectory_eq_ok {t t' : FileTree} {path : String} (h : t.makeDirectory path = .ok t') :
    ∃ path', (path' = path ∨ path' = stripSlashes path) ∧
      t.Takes (Path.resolve t.cwd path') ∧ t.node? (Path.resolve t.cwd path') = none ∧
      t' = t.set (Path.resolve t.cwd path') .directory := by
  rw [makeDirectory] at h
  refine ⟨if stripSlashes path == "" then path else stripSlashes path, ?_, ?_⟩
  · split
    · exact .inl rfl
    · exact .inr rfl
  · cases hf : t.follow (if stripSlashes path == "" then path else stripSlashes path) with
    | error e =>
        rw [hf] at h
        cases h
    | ok s =>
        obtain ⟨-, hsound, hplace⟩ := follow_sound hf
        rw [hf] at h
        dsimp only [bind, Except.bind] at h
        cases hhere : s.here with
        | some b =>
            rw [hhere] at h
            cases h
        | none =>
            rw [hhere] at h
            cases h
            have hnode : s.node? = none := by rw [Spot.node?, hhere, Option.map_none]
            refine ⟨?_, ?_, by rw [hplace]⟩
            · rw [← hplace]
              exact hsound.takes (by simp [hnode])
            · rw [← hplace, ← hsound.node?_eq, hnode]

seal ensureDirectory in
theorem makeDown_nil (absolute : Bool) (t : FileTree) (path : String) :
    t.makeDown absolute path [] =
      match t.ensureDirectory path with
      | .ok t' => (.ok (), t')
      | .error e => (.error e, t) := by
  rfl

seal ensureDirectory in
theorem makeDown_cons (absolute : Bool) (t : FileTree) (path parent : String)
    (above : List String) :
    t.makeDown absolute path (parent :: above) =
      match t.ensureDirectory path with
      | .ok t' => (.ok (), t')
      | .error .notFound =>
          match t.makeDown absolute (pathThrough absolute (parent :: above).reverse) above with
          | (.error e, t') => (.error e, t')
          | (.ok (), t') =>
              match t'.ensureDirectory path with
              | .ok t'' => (.ok (), t'')
              | .error e => (.error e, t')
      | .error e => (.error e, t) := by
  rfl

/-- Nothing has changed but that there may be directories where nothing was. -/
structure Widened (t t' : FileTree) : Prop where
  cwd : t'.cwd = t.cwd
  node : ∀ q, t'.node? q = t.node? q ∨ t.node? q = none ∧ t'.node? q = some .directory

namespace Widened

theorem refl (t : FileTree) : t.Widened t :=
  ⟨rfl, fun _ => .inl rfl⟩

theorem trans {t t' t'' : FileTree} (h : t.Widened t') (h' : t'.Widened t'') : t.Widened t'' := by
  refine ⟨h'.cwd.trans h.cwd, fun q => ?_⟩
  rcases h'.node q with hq' | ⟨hq', hdir⟩
  · rw [hq']
    exact h.node q
  · rcases h.node q with hq | ⟨-, hq⟩
    · rw [hq'] at hq
      exact .inr ⟨hq.symm, hdir⟩
    · rw [hq'] at hq
      cases hq

theorem of_makeDirectory {t t' : FileTree} {path : String} (h : t.makeDirectory path = .ok t') :
    t.Widened t' := by
  obtain ⟨path', -, htakes, hnone, rfl⟩ := makeDirectory_eq_ok h
  refine ⟨t.cwd_set _ _, fun q => ?_⟩
  rw [node?_set htakes]
  by_cases hq : q = Path.resolve t.cwd path'
  · rw [if_pos hq, hq]
    exact .inr ⟨hnone, rfl⟩
  · rw [if_neg hq]
    exact .inl rfl

theorem of_ensureDirectory {t t' : FileTree} {path : String}
    (h : t.ensureDirectory path = .ok t') : t.Widened t' := by
  unfold ensureDirectory at h
  split at h
  · next hmake =>
      cases h
      exact of_makeDirectory hmake
  · cases h
  · split at h
    · cases h
      exact refl t
    · cases h

theorem makeDown (absolute : Bool) (t : FileTree) (path : String) (above : List String) :
    t.Widened (t.makeDown absolute path above).2 := by
  induction above generalizing path with
  | nil =>
      rw [makeDown_nil]
      split
      · next h => exact of_ensureDirectory h
      · exact refl t
  | cons parent above ih =>
      rw [makeDown_cons]
      split
      · next h => exact of_ensureDirectory h
      · -- the directory above comes first, and then this one again
        have habove := ih (pathThrough absolute (parent :: above).reverse)
        split
        · next h =>
            rw [h] at habove
            exact habove
        · next h =>
            rw [h] at habove
            split
            · next h' => exact habove.trans (of_ensureDirectory h')
            · exact habove
      · exact refl t

theorem makeDirectories (t : FileTree) (path : String) : t.Widened (t.makeDirectories path).2 := by
  rw [FileTree.makeDirectories]
  split
  · exact refl t
  · exact makeDown _ t path _

end Widened

end FileTree
end Loopsmith
