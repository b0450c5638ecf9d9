import Loopsmith.Proofs.Files.Operations
import Mathlib.Data.List.Nodup
import Mathlib.Data.List.Perm.Subperm
import Mathlib.Data.String.Basic

/-!
# Names in a directory

Whether a name can be given to something in a directory is decided by the directory and by how
long the name is, but not by what it says: `Path.Spelled.within_of_le` for a file in a directory in a
directory, which is what a build writes, and `FileTree.passes_join_iff_of_ne_empty`, which also
covers a directory that is spelled with a slash at its end.

New directories are given numbers for names.  Names with up to six digits are all of one length
(`FileTree.utf8ByteSize_numbered`), and it is the first of them that is free (`FileTree.freeName_spec`).
There always is one, since a directory has fewer entries than there are numbers to try
(`FileTree.exists_numbered_not_mem`).
-/

namespace Loopsmith
namespace Path

/-- What is put before a name does not depend on the name. -/
theorem exists_join_eq_append (base : String) :
    ∃ before, ∀ x, IsComponent x → join base x = before ++ x := by
  by_cases hbase : base = ""
  · refine ⟨"", fun x _ => ?_⟩
    simp [join, hbase]
  · have hempty : (base == "") = false := by simpa using hbase
    by_cases hlast : base.toList.getLast? = some '/'
    · refine ⟨base, fun x hx => ?_⟩
      simp [join, hx.isAbsolute_eq, hempty, hlast]
    · refine ⟨base ++ "/", fun x hx => ?_⟩
      simp [join, hx.isAbsolute_eq, hempty, hlast]

/-- The way to a name leads through the directory, which may be spelled with a slash at its end. -/
theorem exists_route_join {base : String} (hbase : base ≠ "") (cwd : Place) :
    ∃ r, (∀ x, IsComponent x → route cwd (join base x) = r ++ [x]) ∧
      (route cwd base = r ∨ route cwd base = r ++ [""]) := by
  by_cases hlast : base.toList.getLast? = some '/'
  · obtain ⟨cs, hcs⟩ := List.getLast?_eq_some_iff.1 hlast
    have hempty : (base == "") = false := by simpa using hbase
    refine ⟨(if isAbsolute base then [] else cwd) ++ segments (String.ofList cs), fun x hx => ?_,
      .inr ?_⟩
    · have hjoin : join base x = base ++ x := by
        simp [join, hx.isAbsolute_eq, hempty, hlast]
      have hsegments : segments (base ++ x) = segments (String.ofList cs) ++ [x] := by
        rw [← hx.segments_eq]
        refine segments_append ?_
        simp [hcs]
      rw [hjoin, route, isAbsolute_append hbase, hsegments, List.append_assoc]
    · have hsegments : segments base = segments (String.ofList cs) ++ segments "" := by
        refine segments_append ?_
        simp [hcs]
      rw [route, hsegments, ← List.append_assoc]
      rfl
  · exact ⟨route cwd base, fun x hx => route_join hx hbase hlast cwd, .inl rfl⟩

theorem spelled_of_join_of_ne_empty {cwd : Place} {base x : String} (hx : IsComponent x)
    (hbase : base ≠ "") (h : Spelled cwd (join base x)) : Spelled cwd base := by
  by_cases hlast : base.toList.getLast? = some '/'
  · have hempty : (base == "") = false := by simpa using hbase
    have hjoin : join base x = base ++ x := by
      simp [join, hx.isAbsolute_eq, hempty, hlast]
    refine ⟨hbase, ?_, ?_, ?_⟩
    · intro hnul
      refine h.no_nul ?_
      rw [hjoin, String.toList_append]
      exact List.mem_append_left _ hnul
    · have hshort := h.short
      rw [hjoin, String.utf8ByteSize_append] at hshort
      omega
    · obtain ⟨r, hjoined, hroute⟩ := exists_route_join hbase cwd
      have hnames := h.names
      rw [hjoined x hx] at hnames
      intro c hc
      rcases hroute with hroute | hroute
      · rw [hroute] at hc
        exact hnames c (List.mem_append_left _ hc)
      · rw [hroute] at hc
        rcases List.mem_append.1 hc with hc | hc
        · exact hnames c (List.mem_append_left _ hc)
        · rw [List.mem_singleton.1 hc]
          decide
  · exact spelled_of_join hx hbase hlast h

theorem utf8ByteSize_join {base x : String} (hx : IsComponent x) (hbase : base ≠ "")
    (hlast : base.toList.getLast? ≠ some '/') :
    (join base x).utf8ByteSize = base.utf8ByteSize + 1 + x.utf8ByteSize := by
  have hjoin : join base x = base ++ "/" ++ x := by
    refine String.toList_injective ?_
    rw [toList_join hx hbase hlast]
    simp
  rw [hjoin, String.utf8ByteSize_append, String.utf8ByteSize_append]
  rfl

theorem spelled_join {cwd : Place} {base x : String} (h : Spelled cwd base) (hx : IsComponent x)
    (hlast : base.toList.getLast? ≠ some '/') (hnul : '\x00' ∉ x.toList)
    (hname : x.utf8ByteSize ≤ FileTree.longestName)
    (hshort : base.utf8ByteSize + 1 + x.utf8ByteSize ≤ FileTree.longestPath) :
    Spelled cwd (join base x) := by
  refine ⟨join_ne_empty hx base, ?_, ?_, fun c hc => ?_⟩
  · rw [toList_join hx h.ne_empty hlast, List.mem_append, List.mem_cons, not_or, not_or]
    exact ⟨h.no_nul, by decide, hnul⟩
  · rwa [utf8ByteSize_join hx h.ne_empty hlast]
  · rw [route_join hx h.ne_empty hlast, List.mem_append, List.mem_singleton] at hc
    rcases hc with hc | rfl
    · exact h.names c hc
    · exact hname

/-- If there is room for a file in a directory, there is room for one whose names are no longer. -/
theorem Spelled.within_of_le {cwd : Place} {base name name' x x' : String} (hbase : base ≠ "")
    (hname : IsComponent name) (hname' : IsComponent name') (hx : IsComponent x)
    (hx' : IsComponent x') (hnul : '\x00' ∉ name'.toList ++ x'.toList)
    (hsize : name'.utf8ByteSize ≤ name.utf8ByteSize) (hsize' : x'.utf8ByteSize ≤ x.utf8ByteSize)
    (h : Spelled cwd (join (join base name) x)) : Spelled cwd (join (join base name') x') := by
  obtain ⟨before, hbefore⟩ := exists_join_eq_append base
  obtain ⟨r, hroute, -⟩ := exists_route_join hbase cwd
  have hpath {n y : String} (hn : IsComponent n) (hy : IsComponent y) :
      join (join base n) y = before ++ n ++ "/" ++ y := by
    refine String.toList_injective ?_
    rw [toList_join hy (join_ne_empty hn base) (getLast?_join hn base), hbefore n hn]
    simp
  have hnames {n y : String} (hn : IsComponent n) (hy : IsComponent y) :
      route cwd (join (join base n) y) = r ++ [n] ++ [y] := by
    rw [route_join hy (join_ne_empty hn base) (getLast?_join hn base), hroute n hn]
  have hshort := h.short
  have hnone := h.no_nul
  have hall := h.names
  rw [hpath hname hx] at hshort hnone
  rw [hnames hname hx] at hall
  refine ⟨join_ne_empty hx' _, ?_, ?_, ?_⟩
  · rw [hpath hname' hx']
    simp only [String.toList_append, List.mem_append, not_or] at hnone hnul ⊢
    exact ⟨⟨⟨hnone.1.1.1, hnul.1⟩, hnone.1.2⟩, hnul.2⟩
  · rw [hpath hname' hx']
    simp only [String.utf8ByteSize_append] at hshort ⊢
    omega
  · rw [hnames hname' hx']
    intro c hc
    simp only [List.mem_append, List.mem_singleton] at hc hall
    rcases hc with (hc | rfl) | rfl
    · exact hall c (.inl (.inl hc))
    · exact hsize.trans (hall name (.inl (.inr rfl)))
    · exact hsize'.trans (hall x (.inr rfl))

end Path

namespace FileTree

/-- What it takes to get to a name in a directory, however the directory is spelled. -/
theorem passes_join_iff_of_ne_empty {t : FileTree} {base x : String} (hx : Path.IsComponent x)
    (hbase : base ≠ "") :
    t.Passes (Path.join base x) ↔
      Path.Spelled t.cwd (Path.join base x) ∧ t.isDirectory base = true := by
  obtain ⟨r, hjoined, hroute⟩ := Path.exists_route_join hbase t.cwd
  have hpassed : Path.passed [] (Path.route t.cwd (Path.join base x)) =
      Path.passed [] r ++ [r.foldl Path.walk []] := by
    rw [hjoined x hx, Path.passed_append]
    rfl
  -- a slash at the end leads nowhere
  have hway : ∀ q, q ∈ Path.way t.cwd base ↔
      q ∈ Path.passed [] r ++ [r.foldl Path.walk []] := by
    intro q
    rcases hroute with hroute | hroute
    · rw [Path.way, Path.resolve, hroute]
    · rw [Path.way, Path.resolve, hroute, Path.passed_append, List.foldl_concat, Path.walk_empty]
      simp [Path.passed]
  rw [isDirectory_iff_way, Passes, hpassed]
  constructor
  · rintro ⟨hspelled, hdirs⟩
    exact ⟨hspelled, Path.spelled_of_join_of_ne_empty hx hbase hspelled,
      fun q hq => hdirs q ((hway q).1 hq)⟩
  · rintro ⟨hspelled, -, hdirs⟩
    exact ⟨hspelled, fun q hq => hdirs q ((hway q).2 hq)⟩

/-! ## Numbered names -/

theorem toList_numbered (start : String) (n : Nat) :
    (numbered start n).toList = start.toList ++
      (List.replicate (6 - (Nat.toDigits 10 n).length) '0' ++ Nat.toDigits 10 n) := by
  rw [numbered, Nat.toString_eq_ofList_toDigits]
  simp

theorem numbered_injective (start : String) {i j : Nat} (h : numbered start i = numbered start j) :
    i = j := by
  have hlist := congrArg String.toList h
  rw [toList_numbered, toList_numbered] at hlist
  have hnumber := congrArg (Nat.ofDigitChars 10 · 0) (List.append_cancel_left hlist)
  simpa [Nat.ofDigitChars_append, Nat.ofDigitChars_replicate_zero, Nat.ofDigitChars_ten_toDigits]
    using hnumber

theorem utf8Len_eq_length {cs : List Char} (h : ∀ c ∈ cs, c.isDigit = true) :
    String.utf8Len cs = cs.length := by
  induction cs with
  | nil => rfl
  | cons c cs ih =>
      have hc : c.utf8Size = 1 := by
        have hdigit := h c List.mem_cons_self
        simp only [Char.isDigit, Bool.and_eq_true, decide_eq_true_eq] at hdigit
        exact Char.utf8Size_eq_one_iff.2 (UInt32.le_trans hdigit.2 (by decide))
      rw [String.utf8Len_cons, ih fun d hd => h d (List.mem_cons_of_mem c hd), hc, List.length_cons]

theorem utf8ByteSize_toString_le {n k : Nat} (hk : 0 < k) (h : n < 10 ^ k) :
    (toString n).utf8ByteSize ≤ k := by
  have hdigits : ∀ c ∈ Nat.toDigits 10 n, c.isDigit = true := fun c hc =>
    Nat.isDigit_of_mem_toDigits (by decide) (by decide) hc
  rw [Nat.toString_eq_ofList_toDigits, String.utf8ByteSize_ofList, utf8Len_eq_length hdigits]
  exact (Nat.length_toDigits_le_iff (by decide) hk).2 h

/-- A number that has fewer than six digits gets zeros in front. -/
theorem utf8ByteSize_numbered_eq_max (start : String) (n : Nat) :
    (numbered start n).utf8ByteSize =
      start.utf8ByteSize + max 6 (Nat.toDigits 10 n).length := by
  have hdigits : ∀ c ∈ List.replicate (6 - (Nat.toDigits 10 n).length) '0' ++ Nat.toDigits 10 n,
      c.isDigit = true := by
    intro c hc
    rcases List.mem_append.1 hc with hc | hc
    · rw [List.eq_of_mem_replicate hc]
      rfl
    · exact Nat.isDigit_of_mem_toDigits (by decide) (by decide) hc
  have hname : numbered start n = start ++ String.ofList
      (List.replicate (6 - (Nat.toDigits 10 n).length) '0' ++ Nat.toDigits 10 n) := by
    refine String.toList_injective ?_
    rw [toList_numbered, String.toList_append, String.toList_ofList]
  rw [hname, String.utf8ByteSize_append, String.utf8ByteSize_ofList, utf8Len_eq_length hdigits,
    List.length_append, List.length_replicate]
  omega

theorem utf8ByteSize_numbered (start : String) {n : Nat} (h : n < 10 ^ 6) :
    (numbered start n).utf8ByteSize = start.utf8ByteSize + 6 := by
  rw [utf8ByteSize_numbered_eq_max, max_eq_left]
  exact (Nat.length_toDigits_le_iff (by decide) (by decide)).2 h

/-! ## Free names -/

/-- Among more numbers than there are names, one gives a name that is not taken. -/
theorem exists_numbered_not_mem (start : String) (taken : List String) :
    ∃ n < taken.length + 1, numbered start n ∉ taken := by
  by_contra! hall
  have hnodup : ((List.range (taken.length + 1)).map (numbered start)).Nodup :=
    List.Nodup.map (fun _ _ heq => numbered_injective start heq) List.nodup_range
  have hsubset : (List.range (taken.length + 1)).map (numbered start) ⊆ taken := by
    intro x hx
    obtain ⟨n, hn, rfl⟩ := List.mem_map.1 hx
    exact hall n (List.mem_range.1 hn)
  have hle := (List.subperm_of_subset hnodup hsubset).length_le
  rw [List.length_map, List.length_range] at hle
  omega

/-- The names that are taken are those under which there is something. -/
theorem exists_entries_of_isDirectory {t : FileTree} {parent : String}
    (h : t.isDirectory parent = true) :
    ∃ entries trail, t.follow parent = .ok ⟨some (.directory entries), trail⟩ ∧
      ∀ x, t.node? (Path.resolve t.cwd parent ++ [x]) = none ↔ x ∉ entries.map (·.1) := by
  obtain ⟨hpasses, hdir⟩ := isDirectory_iff.1 h
  obtain ⟨⟨here, trail⟩, hfollow, hsound, hplace⟩ := hpasses.follow
  have hhere := hsound.here_eq
  dsimp only at hhere
  rw [hplace] at hhere
  obtain ⟨entries, rfl⟩ : ∃ entries, here = some (.directory entries) := by
    rw [node?, ← hhere] at hdir
    obtain ⟨b, rfl, hb⟩ := Option.map_eq_some_iff.1 hdir
    cases b with
    | file bytes => cases hb
    | directory entries => exact ⟨entries, rfl⟩
  refine ⟨entries, trail, hfollow, fun x => ?_⟩
  have hget : t.top.get? (Path.resolve t.cwd parent ++ [x]) = entries.lookup x := by
    rw [Branch.get?_append, ← hhere, Option.bind_some, Branch.get?_cons]
    simp [Branch.child?, Branch.get?]
  rw [node?, hget, Option.map_eq_none_iff, List.lookup_eq_none_iff]
  simp only [List.mem_map, not_exists, not_and, bne_iff_ne]
  exact ⟨fun hne e he heq => hne e he heq.symm, fun hne e he heq => hne e he heq.symm⟩

/-- **A new directory gets the first number that is free.** -/
theorem freeName_spec {t : FileTree} {parent : String} (h : t.isDirectory parent = true)
    (start : String) :
    ∃ n, t.freeName parent start = numbered start n ∧
      t.node? (Path.resolve t.cwd parent ++ [numbered start n]) = none ∧
      ∀ i < n, t.node? (Path.resolve t.cwd parent ++ [numbered start i]) ≠ none := by
  obtain ⟨entries, trail, hfollow, hfree⟩ := exists_entries_of_isDirectory h
  have hname : t.freeName parent start = numbered start
      (((List.range ((entries.map (·.1)).length + 1)).find? fun n =>
        !(entries.map (·.1)).contains (numbered start n)).getD (entries.map (·.1)).length) := by
    rw [freeName, hfollow]
  generalize entries.map (·.1) = taken at hname hfree
  obtain ⟨k, hk, hnot⟩ := exists_numbered_not_mem start taken
  cases hfind : (List.range (taken.length + 1)).find? fun n =>
      !taken.contains (numbered start n) with
  | none =>
      rw [List.find?_eq_none] at hfind
      exact absurd hnot (by simpa using hfind k (List.mem_range.2 hk))
  | some n =>
      rw [hfind] at hname
      rw [List.find?_range_eq_some] at hfind
      refine ⟨n, hname, ?_, fun i hi => ?_⟩
      · rw [hfree]
        simpa using hfind.1
      · rw [Ne, hfree, not_not]
        simpa using hfind.2.2 i hi

end FileTree
end Loopsmith
