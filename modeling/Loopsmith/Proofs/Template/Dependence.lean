import Loopsmith.Proofs.Template.Composition

/-!
# What a rendering depends on

A template is rendered against many parameter lists, and it looks at no more of them than its tags
ask for.  A substitution tag asks for the value of its name.  A conditional tag asks for less: whether
its name is bound, and whether it is bound to `0`.  Lists that answer these questions alike
(`Template.Agree`) give the same rendering, or the same error in the same place.

A name that is not bound is an error even where nothing would be written for it, and the error is
that of the first such tag in the source (`Template.render_eq_error_of_first`).  So the names that
`parameterNames` collects are exactly those which have to be bound.  They are collected in a walk of
their own; what it keeps is said by `Template.FirstUses`, of the names seen so far.
-/

namespace Loopsmith

open Text (byteLength)

namespace Template

/-! ## The names that tags use -/

/-- The names of the tags in source order, each as often as it is used. -/
def usedNames (t : Template) : List String :=
  t.tags.map (·.tag.name)

/-- Adds a name unless it is there. -/
def noteName (names : List String) (name : String) : List String :=
  if name ∈ names then names else names ++ [name]

/-- The names that were used, each of them once and in the order of its first use. -/
structure FirstUses (used names : List String) : Prop where
  mem_iff : ∀ name, name ∈ names ↔ name ∈ used
  ordered : names.Pairwise fun a b => used.idxOf a < used.idxOf b

theorem FirstUses.nil : FirstUses [] [] :=
  ⟨fun _ => .rfl, .nil⟩

/-- One more use adds a name at the end, or nothing. -/
theorem FirstUses.note {used names : List String} (h : FirstUses used names) (name : String) :
    FirstUses (used ++ [name]) (noteName names name) := by
  -- the first use of a name that was used stays where it is
  have hordered : names.Pairwise fun a b =>
      (used ++ [name]).idxOf a < (used ++ [name]).idxOf b := by
    refine h.ordered.imp_of_mem fun {a b} ha hb hab => ?_
    rwa [List.idxOf_append_of_mem ((h.mem_iff a).1 ha),
      List.idxOf_append_of_mem ((h.mem_iff b).1 hb)]
  unfold noteName
  split
  · next hmem =>
      refine ⟨fun other => ?_, hordered⟩
      rw [h.mem_iff, List.mem_append, List.mem_singleton]
      constructor
      · exact .inl
      · rintro (hother | rfl)
        · exact hother
        · exact (h.mem_iff other).1 hmem
  · next hmem =>
      refine ⟨fun other => ?_, ?_⟩
      · rw [List.mem_append, List.mem_append, h.mem_iff]
      · refine List.pairwise_append.2 ⟨hordered, List.pairwise_singleton _ _, fun a ha b hb => ?_⟩
        have hused : name ∉ used := fun hname => hmem ((h.mem_iff name).2 hname)
        have ha' : a ∈ used := (h.mem_iff a).1 ha
        rw [List.mem_singleton.1 hb, List.idxOf_append_of_mem ha',
          List.idxOf_append_of_notMem hused]
        exact Nat.lt_add_right _ (List.idxOf_lt_length_iff.2 ha')

theorem FirstUses.noteAll {used names : List String} (h : FirstUses used names)
    (more : List String) : FirstUses (used ++ more) (more.foldl noteName names) := by
  induction more generalizing used names with
  | nil => rwa [List.append_nil]
  | cons name more ih =>
      have hmore := ih (h.note name)
      rwa [List.append_assoc, List.singleton_append] at hmore

theorem FirstUses.nodup {used names : List String} (h : FirstUses used names) : names.Nodup :=
  h.ordered.imp fun {a b} hab heq => by
    rw [heq] at hab
    exact Nat.lt_irrefl _ hab

/-- The name that a piece uses. -/
def usedName? : Piece → Option String
  | .text _ => none
  | .tag tag => some tag.name

theorem usedNames_eq (t : Template) : t.usedNames = t.pieces.filterMap usedName? := by
  have hplace (pos : Nat) (pieces : List Piece) :
      ((place pos pieces).filterMap Placed.tag?).map (·.tag.name) = pieces.filterMap usedName? := by
    induction pieces generalizing pos with
    | nil => rfl
    | cons p pieces ih =>
        cases p with
        | text s => exact ih _
        | tag tag => exact congrArg (tag.name :: ·) (ih _)
  exact hplace 0 t.pieces

theorem mem_usedNames_iff {t : Template} {name : String} :
    name ∈ t.usedNames ↔ ∃ tag, .tag tag ∈ t.pieces ∧ tag.name = name := by
  rw [usedNames_eq, List.mem_filterMap]
  constructor
  · rintro ⟨p, hp, hname⟩
    cases p with
    | text s => cases hname
    | tag tag => exact ⟨tag, hp, Option.some_inj.1 hname⟩
  · rintro ⟨tag, htag, rfl⟩
    exact ⟨.tag tag, htag, rfl⟩

/-- The names of a template are those of its tags, in the order of first use. -/
theorem firstUses_parameterNames (t : Template) : FirstUses t.usedNames t.parameterNames := by
  have hnames : t.parameterNames = t.usedNames.foldl noteName [] := by
    rw [usedNames_eq, List.foldl_filterMap, parameterNames]
    congr 1
    funext names p
    cases p with
    | text s => rfl
    | tag tag => rfl
  rw [hnames]
  exact FirstUses.nil.noteAll t.usedNames

/-! ## The tags in their places -/

theorem le_start_of_mem_place {pos : Nat} {pieces : List Piece} {p : Placed}
    (h : p ∈ place pos pieces) : pos ≤ p.span.start := by
  induction pieces generalizing pos with
  | nil => cases h
  | cons q pieces ih =>
      rcases List.mem_cons.1 h with rfl | h
      · exact Nat.le_refl pos
      · exact (Nat.le_add_right _ _).trans (ih h)

theorem pairwise_place (pos : Nat) (pieces : List Piece) :
    (place pos pieces).Pairwise fun p q => p.span.stop ≤ q.span.start := by
  induction pieces generalizing pos with
  | nil => exact .nil
  | cons p pieces ih => exact .cons (fun q hq => le_start_of_mem_place hq) (ih _)

theorem eq_of_tag?_eq_some {p : Placed} {f : FoundTag} (h : p.tag? = some f) :
    p.piece = .tag f.tag ∧ p.span = f.span := by
  obtain ⟨piece, span⟩ := p
  cases piece with
  | text s => cases h
  | tag tag =>
      cases h
      exact ⟨rfl, rfl⟩

/-- The tags are listed as they come in the source. -/
theorem pairwise_tags (t : Template) :
    t.tags.Pairwise fun f g => f.span.stop ≤ g.span.start := by
  refine List.pairwise_filterMap.2 ((pairwise_place 0 t.pieces).imp ?_)
  intro p q hpq f hf g hg
  rwa [(eq_of_tag?_eq_some hf).2, (eq_of_tag?_eq_some hg).2] at hpq

/-- A tag has the span of its own text in the source. -/
theorem exists_around_of_mem_tags {source : String} {t : Template} (h : parse source = .ok t)
    {f : FoundTag} (hf : f ∈ t.tags) :
    ∃ a b, source.toList = a ++ f.tag.source ++ b ∧
      f.span = Span.ofWidth (byteLength a) (byteLength f.tag.source) := by
  obtain ⟨p, hp, hfound⟩ := List.mem_filterMap.1 hf
  obtain ⟨hpiece, hspan⟩ := eq_of_tag?_eq_some hfound
  obtain ⟨a, q, b, rfl, hsource⟩ := exists_behind_of_parse h hp
  have hq : q = .tag f.tag := hpiece
  rw [hq] at hsource hspan
  exact ⟨a, b, hsource, hspan.symm⟩

/-! ## Names without a value -/

section

variable {ps ps' : Parameters}

/-- Rendering stops at the first tag whose name is not bound. -/
theorem renderAll_eq_error_of_first {placed : List Placed} {before after : List FoundTag}
    {f : FoundTag} (htags : placed.filterMap Placed.tag? = before ++ f :: after)
    (hbefore : ∀ g ∈ before, ps.contains g.tag.name = true)
    (hf : ps.contains f.tag.name = false) :
    renderAll ps placed = .error (.unbound f.tag.name f.span) := by
  induction placed generalizing before with
  | nil => simp at htags
  | cons p placed ih =>
      obtain ⟨piece, span⟩ := p
      cases piece with
      | text s =>
          rw [renderAll_text, ih htags hbefore]
          rfl
      | tag tag =>
          have htag : Placed.tag? ⟨.tag tag, span⟩ = some (Placed.found ⟨.tag tag, span⟩ tag) := rfl
          rw [List.filterMap_cons_some htag] at htags
          cases before with
          | nil =>
              obtain ⟨rfl, -⟩ := List.cons.inj htags
              have hnot : (ps.get? tag.name).isSome = false := hf
              have hnone : ps.get? tag.name = none := by simpa using hnot
              rw [renderAll]
              simp only [renderPlaced, hnone]
              rfl
          | cons g before =>
              obtain ⟨rfl, hrest⟩ := List.cons.inj htags
              obtain ⟨hg, hbefore'⟩ := List.forall_mem_cons.1 hbefore
              obtain ⟨value, hvalue⟩ := Option.isSome_iff_exists.1 hg
              have hvalue : ps.get? tag.name = some value := hvalue
              rw [renderAll, ih hrest hbefore']
              simp only [renderPlaced, hvalue]

theorem render_eq_error_of_first {t : Template} {before after : List FoundTag} {f : FoundTag}
    (htags : t.tags = before ++ f :: after)
    (hbefore : ∀ g ∈ before, ps.contains g.tag.name = true)
    (hf : ps.contains f.tag.name = false) :
    t.render ps = .error (.unbound f.tag.name f.span) := by
  rw [render, renderAll_eq_error_of_first htags hbefore hf]
  rfl

/-- If a name is not bound, there is a first tag that uses such a name. -/
theorem exists_first_unbound {t : Template} {name : String} (hname : name ∈ t.usedNames)
    (hunbound : ps.contains name = false) :
    ∃ before f after, t.tags = before ++ f :: after ∧
      (∀ g ∈ before, ps.contains g.tag.name = true) ∧ ps.contains f.tag.name = false := by
  obtain ⟨g, hg, rfl⟩ := List.mem_map.1 hname
  have hsome : (t.tags.find? fun f => !ps.contains f.tag.name).isSome = true :=
    List.find?_isSome.2 ⟨g, hg, by rw [hunbound]; rfl⟩
  obtain ⟨f, hfirst⟩ := Option.isSome_iff_exists.1 hsome
  obtain ⟨hf, before, after, htags, hbefore⟩ := List.find?_eq_some_iff_append.1 hfirst
  refine ⟨before, f, after, htags, fun g hg => ?_, by simpa using hf⟩
  simpa using hbefore g hg

theorem exists_render_of_bound {t : Template}
    (h : ∀ name ∈ t.usedNames, ps.contains name = true) : ∃ out, t.render ps = .ok out := by
  have hbound : ∀ tag, .tag tag ∈ t.pieces → ps.contains tag.name = true := by
    intro tag htag
    exact h tag.name (mem_usedNames_iff.2 ⟨tag, htag, rfl⟩)
  obtain ⟨out, hout, -⟩ := exists_renderAll_eq t.pieces [] [] rfl hbound
  have hplaced : renderAll ps t.placed = .ok out := hout
  exact ⟨String.ofList out, by rw [render, hplaced]; rfl⟩

/-! ## Two lists -/

/-- A substitution tag has this name. -/
def Substitutes (t : Template) (name : String) : Prop :=
  ∃ lead trail, .tag (.substitution lead name trail) ∈ t.pieces

/-- A conditional tag has this name. -/
def Decides (t : Template) (name : String) : Prop :=
  ∃ lead body, .tag (.conditional lead name body) ∈ t.pieces

/-- The two lists are the same as far as the tags of the template ask. -/
structure Agree (t : Template) (ps ps' : Parameters) : Prop where
  substituted : ∀ name, t.Substitutes name → ps.get? name = ps'.get? name
  decided : ∀ name, t.Decides name → ¬ t.Substitutes name →
    ps.contains name = ps'.contains name ∧ (ps.get? name = some "0" ↔ ps'.get? name = some "0")

theorem renderPlaced_eq_of_get? {tag : Tag} {span : Span}
    (h : ps.get? tag.name = ps'.get? tag.name) :
    renderPlaced ps ⟨.tag tag, span⟩ = renderPlaced ps' ⟨.tag tag, span⟩ := by
  simp only [renderPlaced, h]

theorem Agree.renderPlaced_eq {t : Template} (h : t.Agree ps ps') {p : Placed}
    (hp : p.piece ∈ t.pieces) : renderPlaced ps p = renderPlaced ps' p := by
  obtain ⟨piece, span⟩ := p
  cases piece with
  | text s => rfl
  | tag tag =>
      cases tag with
      | substitution lead name trail =>
          exact renderPlaced_eq_of_get? (h.substituted name ⟨lead, trail, hp⟩)
      | conditional lead name body =>
          by_cases hsub : t.Substitutes name
          · exact renderPlaced_eq_of_get? (h.substituted name hsub)
          · -- the value itself does not matter, only whether it is there and is `0`
            obtain ⟨hbound, hzero⟩ := h.decided name ⟨lead, body, hp⟩ hsub
            simp only [renderPlaced, Tag.name]
            simp only [Parameters.contains] at hbound
            cases hv : ps.get? name with
            | none =>
                rw [hv] at hbound
                cases hv' : ps'.get? name with
                | none => rfl
                | some value' => rw [hv'] at hbound; cases hbound
            | some value =>
                rw [hv] at hbound hzero
                cases hv' : ps'.get? name with
                | none => rw [hv'] at hbound; cases hbound
                | some value' =>
                    rw [hv', Option.some_inj, Option.some_inj] at hzero
                    simp only [expand, hzero]

theorem renderAll_congr {placed : List Placed}
    (h : ∀ p ∈ placed, renderPlaced ps p = renderPlaced ps' p) :
    renderAll ps placed = renderAll ps' placed := by
  induction placed with
  | nil => rfl
  | cons p placed ih =>
      obtain ⟨hp, hplaced⟩ := List.forall_mem_cons.1 h
      rw [renderAll, renderAll, hp, ih hplaced]

theorem Agree.render_eq {t : Template} (h : t.Agree ps ps') : t.render ps = t.render ps' := by
  have hpieces : ∀ p ∈ t.placed, p.piece ∈ t.pieces := by
    intro p hp
    rw [← map_piece_place 0 t.pieces]
    exact List.mem_map_of_mem hp
  rw [render, render, renderAll_congr fun p hp => h.renderPlaced_eq (hpieces p hp)]

end

/-- **Rendering depends on the names that tags use, and on nothing else.**  Let a source parse.
Its tags are listed in source order, with their spans, and `parameterNames` has each of their names
once, in the order of first use.

Rendering succeeds if and only if all these names are bound, be it for a conditional tag whose body
is left out.  If one is not, the error has the name and the span of the first tag whose name is not
bound.  And two lists give the same outcome, errors and their spans included, if they agree on the
names of substitution tags and, for the names that only conditional tags have, on whether they are
bound and whether they are `0`. -/
theorem render_depends_on_names {source : String} {t : Template} (h : parse source = .ok t) :
    ((t.tags.Pairwise fun f g => f.span.stop ≤ g.span.start) ∧
      ∀ f ∈ t.tags, ∃ a b, source.toList = a ++ f.tag.source ++ b ∧
        f.span = Span.ofWidth (byteLength a) (byteLength f.tag.source)) ∧
    (t.parameterNames.Nodup ∧
      (∀ name, name ∈ t.parameterNames ↔ ∃ f ∈ t.tags, f.tag.name = name) ∧
      t.parameterNames.Pairwise fun a b =>
        (t.tags.map (·.tag.name)).idxOf a < (t.tags.map (·.tag.name)).idxOf b) ∧
    ∀ ps : Parameters,
      ((∃ out, t.render ps = .ok out) ↔ ∀ name ∈ t.parameterNames, ps.contains name = true) ∧
      ((∃ name ∈ t.parameterNames, ps.contains name = false) →
        ∃ before f after, t.tags = before ++ f :: after ∧
          (∀ g ∈ before, ps.contains g.tag.name = true) ∧ ps.contains f.tag.name = false ∧
          t.render ps = .error (.unbound f.tag.name f.span)) ∧
      ∀ ps' : Parameters, t.Agree ps ps' → t.render ps = t.render ps' := by
  have hnames := firstUses_parameterNames t
  have hunbound (ps : Parameters) (hname : ∃ name ∈ t.parameterNames, ps.contains name = false) :
      ∃ before f after, t.tags = before ++ f :: after ∧
        (∀ g ∈ before, ps.contains g.tag.name = true) ∧ ps.contains f.tag.name = false ∧
        t.render ps = .error (.unbound f.tag.name f.span) := by
    obtain ⟨name, hname, hnot⟩ := hname
    obtain ⟨before, f, after, htags, hbefore, hf⟩ :=
      exists_first_unbound ((hnames.mem_iff name).1 hname) hnot
    exact ⟨before, f, after, htags, hbefore, hf, render_eq_error_of_first htags hbefore hf⟩
  refine ⟨⟨pairwise_tags t, fun f hf => exists_around_of_mem_tags h hf⟩,
    ⟨hnames.nodup, fun name => (hnames.mem_iff name).trans List.mem_map, hnames.ordered⟩,
    fun ps => ⟨⟨?_, ?_⟩, hunbound ps, fun ps' hagree => hagree.render_eq⟩⟩
  · rintro ⟨out, hout⟩ name hname
    by_contra hnot
    obtain ⟨-, f, -, -, -, -, herror⟩ := hunbound ps ⟨name, hname, by simpa using hnot⟩
    rw [hout] at herror
    cases herror
  · intro hbound
    exact exists_render_of_bound fun name hname => hbound name ((hnames.mem_iff name).2 hname)

/-- One name is used by tags of both kinds, and of the other one only matters that it is bound and
not `0`. -/
theorem render_depends_on_names_mixed :
    ∃ t, parse "é/*<DOPING B >*//*<DOPING_IF A x>*//*<DOPING_IF B y>*/" = .ok t ∧
      t.render ⟨[("A", "1"), ("B", "2")]⟩ = t.render ⟨[("B", "2"), ("Z", "0"), ("A", "")]⟩ ∧
      ∃ f ∈ t.tags, Parameters.contains ⟨[("B", "2")]⟩ f.tag.name = false ∧
        t.render ⟨[("B", "2")]⟩ = .error (.unbound f.tag.name f.span) := by
  have hparse : parse "é/*<DOPING B >*//*<DOPING_IF A x>*//*<DOPING_IF B y>*/" =
      .ok ⟨[.text ['é'], .tag (.substitution 0 "B" 0), .tag (.conditional 0 "A" ['x']),
        .tag (.conditional 0 "B" ['y'])]⟩ := by
    decide +kernel
  obtain ⟨-, -, hrender⟩ := render_depends_on_names hparse
  obtain ⟨-, -, hagree⟩ := hrender ⟨[("A", "1"), ("B", "2")]⟩
  obtain ⟨-, herror, -⟩ := hrender ⟨[("B", "2")]⟩
  obtain ⟨before, f, after, htags, -, hf, hunbound⟩ := herror ⟨"A", by decide, by decide⟩
  refine ⟨_, hparse, hagree _ ⟨?_, ?_⟩, f, by simp [htags], hf, hunbound⟩
  · rintro name ⟨lead, trail, hmem⟩
    have hname : name = "B" := by simp at hmem; exact hmem.2.1
    rw [hname]
    rfl
  · rintro name ⟨lead, body, hmem⟩ hnot
    have hname : name = "A" := by
      simp at hmem
      rcases hmem with hmem | hmem
      · exact hmem.2.1
      · exact absurd ⟨0, 0, by simp [hmem.2.1]⟩ hnot
    rw [hname]
    exact ⟨rfl, by decide⟩

end Template
end Loopsmith
